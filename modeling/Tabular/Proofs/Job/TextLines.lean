import Tabular.Job.Reader
import Tabular.Job.Run
import Tabular.Proofs.Text.Lines

/-!
# Text among documents on lines

A line without documents ends the run of documents in front of it, so no document is still pending
behind the line: what is written for the lines in front of it and for those behind it does not
depend on the others.
-/

namespace Tabular

namespace Outcome

theorem followedBy_of_failure {first : Outcome} {cause : Cause}
    (failed : first.failure = some cause) (second : Outcome) : first.followedBy second = first := by
  simp only [followedBy, failed]

theorem write_followedBy_write (first second : String) :
    (write first).followedBy (write second) = write (first ++ second) := rfl

theorem followedBy_assoc (first second third : Outcome) :
    (first.followedBy second).followedBy third = first.followedBy (second.followedBy third) := by
  cases failed : first.failure with
  | some cause => simp only [followedBy, failed]
  | none =>
    cases broken : second.failure with
    | some cause => simp only [followedBy, failed, broken]
    | none => simp only [followedBy, failed, broken, String.append_assoc]

end Outcome

theorem Document.readJsonLine?_eq_none {line : String}
    (simple : ∀ root, Json.read line = .ok root → root.isSimple = true) :
    readJsonLine? line = none := by
  unfold readJsonLine?
  cases read : Json.read line with
  | error _ => rfl
  | ok root =>
    have leaf := simple root read
    cases root with
    | array _ | object _ => cases leaf
    | _ => rfl

namespace Job

/-- The lines of an input that are not blank, up to the first one that is not valid text. -/
def visibleLines (input : Text.Input) : List String :=
  (Text.validLines input.lines).1.filter fun line => !Text.isBlankText line

/-- What is wrong with the lines of an input. -/
def lineFlaw (input : Text.Input) : Option Cause :=
  if (Text.validLines input.lines).2 then some .invalidText else none

/-- A line of text: it is not blank, it stays one line as it stands, and it holds no documents. -/
structure TextLine (line : String) : Prop where
  visible : Text.isBlankText line = false
  noFeed : '\n' ∉ line.toList
  noReturn : line.toList.getLast? ≠ some '\r'
  /-- What it holds as JSON is neither a list nor an object. -/
  simple : ∀ root, Json.read line = .ok root → root.isSimple = true

section

variable {job : Job} {keys : List String}

theorem runJsonLines_of_keys (requested : job.keys = some keys) (named : keys ≠ [])
    (input : Text.Input) :
    job.runJsonLines input = job.runLines keys (lineFlaw input) [] (visibleLines input) := by
  obtain ⟨key, more, rfl⟩ := List.exists_cons_of_ne_nil named
  simp only [runJsonLines, requested]
  rfl

theorem runLines_of_documents {line : String} {documents : List Json}
    (read : Document.readJsonLine? line = some documents) (flaw : Option Cause)
    (pending : List Json) (lines : List String) :
    job.runLines keys flaw pending (line :: lines) =
      job.runLines keys flaw (pending ++ documents) lines := by
  rw [runLines, read]

theorem runLines_of_text {line : String} (read : Document.readJsonLine? line = none)
    (flaw : Option Cause) (pending : List Json) (lines : List String) :
    job.runLines keys flaw pending (line :: lines) =
      ((job.flushRun keys pending).followedBy (.writeLines [line])).followedBy
        (job.runLines keys flaw [] lines) := by
  rw [runLines, read]

/-- Nothing is pending behind a line without documents, whatever was pending in front. -/
theorem runLines_append {line : String} (read : Document.readJsonLine? line = none)
    (flaw : Option Cause) (pending : List Json) (front back : List String) :
    job.runLines keys flaw pending (front ++ line :: back) =
      ((job.runLines keys none pending front).followedBy (.writeLines [line])).followedBy
        (job.runLines keys flaw [] back) := by
  induction front generalizing pending with
  | nil => exact runLines_of_text read flaw pending back
  | cons earlier front ih =>
    rw [List.cons_append]
    cases known : Document.readJsonLine? earlier with
    | some documents =>
      rw [runLines_of_documents known, runLines_of_documents known, ih]
    | none =>
      rw [runLines_of_text known, runLines_of_text known, ih]
      simp only [Outcome.followedBy_assoc]

theorem exists_failure_runLines (cause : Cause) (pending : List Json) (lines : List String) :
    ∃ reported, (job.runLines keys (some cause) pending lines).failure = some reported := by
  induction lines generalizing pending with
  | nil => exact ⟨cause, rfl⟩
  | cons line lines ih =>
    cases known : Document.readJsonLine? line with
    | some documents =>
      rw [runLines_of_documents known]
      exact ih (pending ++ documents)
    | none =>
      obtain ⟨later, failed⟩ := ih []
      rw [runLines_of_text known]
      unfold Outcome.followedBy
      split
      · rename_i earlier stopped
        exact ⟨earlier, stopped⟩
      · exact ⟨later, failed⟩

/-- Behind an ended line a line of text parts the outcome in two, also where one of the parts
fails. -/
theorem runJsonLines_append (requested : job.keys = some keys) (named : keys ≠ [])
    {first : Text.Input} (complete : first.Complete) {line : String} (text : TextLine line)
    (second : Text.Input) :
    job.runJsonLines (first ++ .ofText (line ++ "\n") ++ second) =
      ((job.runJsonLines first).followedBy (.writeLines [line])).followedBy
        (job.runJsonLines second) := by
  have lines : (first ++ .ofText (line ++ "\n") ++ second : Text.Input).lines =
      first.lines ++ Text.Input.ofText line :: second.lines := by
    have ended : Text.Input.ofText (line ++ "\n") ++ second =
        .ofText line ++ .char '\n' :: second := by
      simp [Text.Input.ofText]
    rw [List.append_assoc, Text.Input.lines_append complete, ended,
      Text.Input.lines_ofText_cons text.noFeed text.noReturn]
  simp only [runJsonLines_of_keys requested named, visibleLines, lineFlaw, lines]
  cases broken : (Text.validLines first.lines).2 with
  | true =>
    -- The input is read up to the broken line only, with the line of text or without it.
    obtain ⟨reported, failed⟩ := @exists_failure_runLines job keys .invalidText []
      ((Text.validLines first.lines).1.filter fun line => !Text.isBlankText line)
    rw [Text.validLines_append_of_broken broken, broken, if_pos rfl,
      Outcome.followedBy_of_failure failed, Outcome.followedBy_of_failure failed]
  | false =>
    rw [Text.validLines_append_of_valid broken, Text.validLines_ofText_cons, List.filter_append,
      List.filter_cons_of_pos (by simp [text.visible]),
      runLines_append (Document.readJsonLine?_eq_none text.simple)]
    rfl

end

/-- Lines of text cut the documents on lines cleanly. Where keys are requested, ended lines that are
carried out without failure and lines that are carried out without failure give, with a line of text
between them, what the first give, the line of text itself, and then what the second give. -/
theorem runJsonLines_around_textLine {job : Job} {keys : List String}
    (requested : job.keys = some keys) (named : keys ≠ []) {first second : Text.Input}
    (complete : first.Complete) {line before after : String} (text : TextLine line)
    (firstRun : job.runJsonLines first = .write before)
    (secondRun : job.runJsonLines second = .write after) :
    job.runJsonLines (first ++ .ofText (line ++ "\n") ++ second) =
      .write (before ++ (line ++ "\n") ++ after) := by
  have repeated : Outcome.writeLines [line] = .write (line ++ "\n") := by
    simp [Outcome.writeLines, String.join_cons]
  rw [runJsonLines_append requested named complete text, firstRun, secondRun, repeated,
    Outcome.write_followedBy_write, Outcome.write_followedBy_write]

/-- Runs of two documents and of one, with a blank line, around a line that is half a document. -/
theorem runJsonLines_around_textLine_brace :
    let job : Job := { ofMode .jsonLines with keys := some ["a"], form := .lines }
    let first := Text.Input.ofText "x\n\x7b\"a\":1\x7d\n\n[\x7b\"a\":2\x7d]\n"
    let second := Text.Input.ofText "\x7b\"a\":3\x7d\ny\n"
    ofTokens .jsonLines ["keys[a]", "out..csv"] = .ok job ∧ first.Complete ∧ TextLine "\x7b\"a\":" ∧
      job.runJsonLines first = .write "x\na\n1\n2\n" ∧
      job.runJsonLines second = .write "a\n3\ny\n" ∧
      job.runJsonLines (first ++ .ofText ("\x7b\"a\":" ++ "\n") ++ second) =
        .write ("x\na\n1\n2\n" ++ ("\x7b\"a\":" ++ "\n") ++ "a\n3\ny\n") := by
  intro job first second
  have complete : first.Complete := by decide
  have text : TextLine "\x7b\"a\":" := by
    refine ⟨by decide, by decide, by decide, ?_⟩
    intro root read
    have failed : (Json.read "\x7b\"a\":").toOption = none := rfl
    rw [read] at failed
    cases failed
  have firstRun : job.runJsonLines first = .write "x\na\n1\n2\n" := rfl
  have secondRun : job.runJsonLines second = .write "a\n3\ny\n" := rfl
  exact ⟨rfl, complete, text, firstRun, secondRun,
    runJsonLines_around_textLine rfl (by decide) complete text firstRun secondRun⟩

end Job

end Tabular
