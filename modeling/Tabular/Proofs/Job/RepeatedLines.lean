import Tabular.Proofs.Job.TextLines

/-!
# Repeated lines

Where no keys are requested, documents on lines are not taken apart: the lines themselves are
repeated. Without a condition every document is selected, so a line can get lost in one way only: it
holds a list without objects, and of no documents none is selected.
-/

namespace Tabular

section

variable {kept : String → Bool}

theorem length_join_filter_le (lines : List String) :
    (String.join ((lines.filter kept).map (· ++ "\n"))).length ≤
      (String.join (lines.map (· ++ "\n"))).length := by
  induction lines with
  | nil => exact Nat.le_refl _
  | cons line lines ih =>
    cases keeps : kept line <;> simp [keeps, String.join_cons, -String.length_join] <;> omega

/-- Every line takes up room, so some lines make the text of all of them only if none is missing. -/
theorem join_filter_eq_join_iff {lines : List String} :
    String.join ((lines.filter kept).map (· ++ "\n")) = String.join (lines.map (· ++ "\n")) ↔
      ∀ line ∈ lines, kept line = true := by
  refine ⟨fun same => ?_, fun all => by rw [List.filter_eq_self.mpr all]⟩
  induction lines with
  | nil => simp
  | cons line lines ih =>
    cases keeps : kept line with
    | true =>
      rw [List.filter_cons_of_pos keeps, List.map_cons, List.map_cons, String.join_cons,
        String.join_cons, String.append_right_inj] at same
      exact List.forall_mem_cons.mpr ⟨keeps, ih same⟩
    | false =>
      have sizes := congrArg String.length same
      have bound := @length_join_filter_le kept lines
      have feed : "\n".length = 1 := rfl
      rw [List.filter_cons_of_neg (by simp [keeps]), List.map_cons, String.join_cons,
        String.length_append, String.length_append, feed] at sizes
      omega

end

namespace Document

/-- A line that holds a list in which no element is an object. -/
def isBareList (line : String) : Bool :=
  match Json.read line with
  | .ok (.array items) => items.all fun item => !item.isObject
  | _ => false

/-- Of all lines that can be read, only lists without objects hold no documents. -/
theorem readJsonLine?_eq_some_nil_iff {line : String} :
    readJsonLine? line = some [] ↔ isBareList line = true := by
  unfold isBareList readJsonLine?
  cases Json.read line with
  | error _ => simp
  | ok root => cases root <;> simp [ofRoot?]

end Document

namespace Outcome

theorem writeLines_followedBy_writeLines (first second : List String) :
    (writeLines first).followedBy (writeLines second) = writeLines (first ++ second) := by
  simp only [writeLines, write_followedBy_write, List.map_append, String.join_append]

end Outcome

namespace Job

section

variable {job : Job}

theorem echoLine_of_condition (unconditional : job.condition = none) (line : String) :
    job.echoLine line = .writeLines ([line].filter fun line => !Document.isBareList line) := by
  have bare := @Document.readJsonLine?_eq_some_nil_iff line
  unfold echoLine
  simp only [unconditional, Option.all_none]
  cases read : Document.readJsonLine? line with
  | none =>
    have kept : Document.isBareList line = false := by simpa [read] using bare
    simp [kept]
  | some documents =>
    cases documents with
    | nil =>
      rw [List.filter_cons_of_neg (by simp [bare.mp read])]
      rfl
    | cons document documents =>
      have kept : Document.isBareList line = false := by simpa [read] using bare
      simp [kept]

theorem join_echoLine (unconditional : job.condition = none) (lines : List String) :
    Outcome.join (lines.map job.echoLine) =
      .writeLines (lines.filter fun line => !Document.isBareList line) := by
  induction lines with
  | nil => rfl
  | cons line lines ih =>
    have step : Outcome.join ((line :: lines).map job.echoLine) =
        (job.echoLine line).followedBy (Outcome.join (lines.map job.echoLine)) := rfl
    rw [step, ih, echoLine_of_condition unconditional, Outcome.writeLines_followedBy_writeLines,
      ← List.filter_append, List.singleton_append]

theorem runJsonLines_of_condition (unrequested : job.keys = none)
    (unconditional : job.condition = none) (input : Text.Input) :
    job.runJsonLines input =
      ⟨String.join (((visibleLines input).filter fun line => !Document.isBareList line).map
        (· ++ "\n")), lineFlaw input⟩ := by
  have repeated := join_echoLine unconditional (visibleLines input)
  simp only [runJsonLines, unrequested]
  rw [visibleLines] at repeated
  rw [repeated]
  simp only [Outcome.writeLines, Outcome.write, Outcome.followedBy, String.append_empty]
  rfl

theorem visibleLines_ofText {lines : List String}
    (plain : ∀ line ∈ lines, '\n' ∉ line.toList ∧ line.toList.getLast? ≠ some '\r') :
    visibleLines (.ofText (String.join (lines.map (· ++ "\n")))) =
      lines.filter fun line => !Text.isBlankText line := by
  have read : (Text.Input.ofText (String.join (lines.map (· ++ "\n")))).lines =
      lines.map Text.Input.ofText := by
    induction lines with
    | nil => rfl
    | cons line lines ih =>
      obtain ⟨⟨noFeed, noReturn⟩, rest⟩ := List.forall_mem_cons.mp plain
      have parts : Text.Input.ofText (String.join ((line :: lines).map (· ++ "\n"))) =
          Text.Input.ofText line ++
            .char '\n' :: Text.Input.ofText (String.join (lines.map (· ++ "\n"))) := by
        simp [Text.Input.ofText, String.join_cons]
      rw [parts, Text.Input.lines_ofText_cons noFeed noReturn, ih rest, List.map_cons]
  have valid (lines : List String) : Text.validLines (lines.map Text.Input.ofText) =
      (lines, false) := by
    induction lines with
    | nil => rfl
    | cons line lines ih => rw [List.map_cons, Text.validLines_ofText_cons, ih]
  rw [visibleLines, read, valid]

end

/-- A job over lines without requested keys and without a condition repeats the lines that are not
blank, in their order and as they stand, up to a flaw of the input. It leaves out lists without
objects, and nothing else: all lines are there exactly when none of them is such a list. -/
theorem run_repeats_visibleLines {job : Job} (onLines : job.mode = .jsonLines)
    (unrequested : job.keys = none) (unconditional : job.condition = none) :
    (∀ input : Text.Input,
      job.run input =
        ⟨String.join (((visibleLines input).filter fun line => !Document.isBareList line).map
          (· ++ "\n")), if input = [] then some .noData else lineFlaw input⟩ ∧
      ((job.run input).written = String.join ((visibleLines input).map (· ++ "\n")) ↔
        ∀ line ∈ visibleLines input, Document.isBareList line = false)) ∧
    ∀ lines : List String,
      (∀ line ∈ lines, '\n' ∉ line.toList ∧ line.toList.getLast? ≠ some '\r') →
      (∀ line ∈ lines, Document.isBareList line = false) →
      (job.run (.ofText (String.join (lines.map (· ++ "\n"))))).written =
        String.join ((lines.filter fun line => !Text.isBlankText line).map (· ++ "\n")) := by
  have closed (input : Text.Input) : job.run input =
      ⟨String.join (((visibleLines input).filter fun line => !Document.isBareList line).map
        (· ++ "\n")), if input = [] then some .noData else lineFlaw input⟩ := by
    cases input with
    | nil => rfl
    | cons mark marks =>
      have filled : (mark :: marks : Text.Input) ≠ [] := List.cons_ne_nil mark marks
      rw [run, List.isEmpty_cons, onLines, if_neg filled,
        ← runJsonLines_of_condition unrequested unconditional]
      rfl
  have complete (input : Text.Input) :
      (job.run input).written = String.join ((visibleLines input).map (· ++ "\n")) ↔
        ∀ line ∈ visibleLines input, Document.isBareList line = false := by
    rw [closed, join_filter_eq_join_iff]
    simp
  refine ⟨fun input => ⟨closed input, complete input⟩, fun lines plain noList => ?_⟩
  have visible := visibleLines_ofText plain
  rw [(complete _).mpr, visible]
  rw [visible]
  exact fun line member => noList line (List.mem_filter.mp member).1

/-- Text, a number, a list with one object among other elements, an object, and a blank line. -/
theorem run_repeats_visibleLines_mixed :
    let job := ofMode .jsonLines
    let lines := ["x [", "", "7", "[1, \x7b\"a\":2\x7d, []]", "  ", "\x7b\"b\":[]\x7d"]
    ofTokens .jsonLines [] = .ok job ∧ job.mode = .jsonLines ∧ job.keys = none ∧
      job.condition = none ∧
      (∀ line ∈ lines, '\n' ∉ line.toList ∧ line.toList.getLast? ≠ some '\r') ∧
      (∀ line ∈ lines, Document.isBareList line = false) ∧
      (job.run (.ofText (String.join (lines.map (· ++ "\n"))))).written =
        "x [\n7\n[1, \x7b\"a\":2\x7d, []]\n\x7b\"b\":[]\x7d\n" := by
  intro job lines
  have plain : ∀ line ∈ lines, '\n' ∉ line.toList ∧ line.toList.getLast? ≠ some '\r' := by
    decide
  have noList : ∀ line ∈ lines, Document.isBareList line = false := by
    decide +kernel
  exact ⟨rfl, rfl, rfl, rfl, plain, noList,
    (run_repeats_visibleLines rfl rfl rfl).2 lines plain noList⟩

/-- A list of numbers is a line that is not blank, and it is not repeated. -/
theorem run_loses_list :
    ofTokens .jsonLines [] = .ok (ofMode .jsonLines) ∧
      visibleLines (.ofText "[1]\n") = ["[1]"] ∧
      (ofMode .jsonLines).run (.ofText "[1]\n") = .write "" ∧
      ((ofMode .jsonLines).run (.ofText "[1]\n")).written ≠
        String.join ((visibleLines (.ofText "[1]\n")).map (· ++ "\n")) :=
  ⟨rfl, rfl, rfl, by decide +kernel⟩

end Job

end Tabular
