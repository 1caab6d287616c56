import Tabular.Proofs.Job.Streaming
import Tabular.Proofs.Text.Lines

/-!
# Failed runs

A run that collects rows or documents fails before it has written anything. A run that writes rows
as it reads them can fail at a line that is not valid text only, and then it has written what it
writes for the lines in front of that line.
-/

namespace Tabular

namespace Outcome

/-- Nothing has been written where something went wrong. -/
def Clean (outcome : Outcome) : Prop :=
  outcome.failure.isSome → outcome.written = ""

theorem clean_write (text : String) : (write text).Clean := by
  intro failed
  cases failed

theorem clean_fail (cause : Cause) : (fail cause).Clean :=
  fun _ => rfl

theorem clean_ofResult (result : Except Cause String) : (ofResult result).Clean := by
  cases result with
  | ok text => exact clean_write text
  | error cause => exact clean_fail cause

end Outcome

theorem Delimited.records_of_lines {splitting : Splitting} (onLines : splitting ≠ .csv)
    (input : Text.Input) :
    records splitting input =
      ((Text.validLines input.lines).1.map (splitLine splitting),
        if (Text.validLines input.lines).2 then some .invalidText else none) := by
  cases splitting with
  | csv => exact absurd rfl onLines
  | blanks | literal => rfl

namespace Job

section

variable {job : Job}

theorem clean_finish (job : Job) (table : Table) : (job.finish table).Clean :=
  Outcome.clean_ofResult _

theorem clean_runRecords (collects : job.needsAllRows) (input : Text.Input) :
    (job.runRecords input).Clean := by
  simp only [runRecords, collects, if_true]
  split
  · exact Outcome.clean_fail _
  · exact clean_finish job _

theorem clean_runDocuments (job : Job) (documents : List Json) :
    (job.runDocuments documents).Clean := by
  unfold runDocuments
  split
  · exact Outcome.clean_fail .noKeys
  · exact Outcome.clean_write _
  · exact clean_finish job _

theorem clean_runText (job : Job) (input : Text.Input) : (job.runText input).Clean := by
  unfold runText
  split
  · exact Outcome.clean_fail .invalidText
  · split
    · exact Outcome.clean_fail .noData
    · split
      · exact clean_runDocuments job _
      · exact Outcome.clean_fail _

theorem clean_run {input : Text.Input} (collects : input = [] ∨
    job.mode = .csv ∧ job.needsAllRows ∨ job.mode = .json ∨ job.mode = .yaml) :
    (job.run input).Clean := by
  unfold run
  split
  · exact Outcome.clean_fail .noData
  · rename_i filled
    rcases collects with rfl | ⟨records, collects⟩ | json | yaml
    · exact absurd rfl filled
    · rw [records]
      exact clean_runRecords collects input
    · rw [json]
      exact clean_runText job input
    · rw [yaml]
      exact clean_runText job input

/-- In front of a broken line, streaming is done with the records there. -/
theorem runRecords_of_breaksBehind (streams : job.needsAllRows = false)
    (onLines : job.splitting ≠ .csv) {before after : Text.Input}
    (breaks : before.BreaksBehind after) :
    job.runRecords (before ++ after) =
      ⟨(job.runRecords before).written, some .invalidText⟩ ∧
      (job.runRecords before).failure = none := by
  obtain ⟨front, whole⟩ := Text.validLines_of_breaksBehind breaks
  have read : (Text.validLines before.lines).2 = false := congrArg Prod.snd front
  simp only [runRecords_of_streams streams, Delimited.records_of_lines onLines, whole, read]
  exact ⟨rfl, rfl⟩

end

/-- A failed run leaves nothing half done behind. Where there is no input at all, or a command
collects rows or reads documents that are not on lines, nothing has been written. Where it writes
rows as it reads them, from records on lines, the input has a line that is not valid text, and what
has been written is all that is written for the lines in front of the first such line. -/
theorem run_failure_written {mode : Mode} {tokens : List String} {job : Job} {input : Text.Input}
    {cause : Cause} (accepted : ofTokens mode tokens = .ok job)
    (failed : (job.run input).failure = some cause) :
    (input = [] ∨ mode = .csv ∧ job.needsAllRows ∨ mode = .json ∨ mode = .yaml →
      (job.run input).written = "") ∧
    (mode = .csv → job.needsAllRows = false → job.splitting ≠ .csv → input ≠ [] →
      cause = .invalidText ∧ ∃ before after, input = before ++ after ∧
        before.BreaksBehind after ∧
        job.runRecords before = .write (job.run input).written) := by
  have asked : job.mode = mode := mode_of_ofTokens accepted
  subst asked
  constructor
  · intro collects
    apply clean_run collects
    rw [failed]
    rfl
  · intro records streams onLines filled
    rw [run_of_csv input records filled] at failed ⊢
    have broken : (Text.validLines input.lines).2 = true := by
      by_contra read
      simp [runRecords_of_streams streams, Delimited.records_of_lines onLines, read] at failed
    obtain ⟨before, after, rfl, breaks⟩ := Text.Input.exists_breaksBehind broken
    obtain ⟨stopped, done⟩ := runRecords_of_breaksBehind streams onLines breaks
    rw [stopped] at failed ⊢
    refine ⟨(Option.some.inj failed).symm, before, after, rfl, breaks, ?_⟩
    rw [Outcome.write, ← done]

/-- A stray byte on the second line of records with given labels, and a document whose row is wider
than the names for its members. -/
theorem run_failure_written_stray :
    let job : Job := { ofMode .csv with
      splitting := .literal ",", joining := .literal "\t", labels := some ["a", "b"]
      headless := true }
    let records := Text.Input.ofText "1,2\n" ++ .stray 0xff :: Text.Input.ofText ",3\n4,5"
    let rendering : Job := { ofMode .json with
      keys := some ["a", "b"], labels := some ["x"], form := .json }
    let document := Text.Input.ofText "\x7b\"a\":1,\"b\":2\x7d"
    (ofTokens .csv ["split:comma", "merge:tab", "head[a,b]", "-inhead"] = .ok job ∧
      (job.run records).failure = some .invalidText ∧ job.needsAllRows = false ∧
      job.splitting ≠ .csv ∧ records ≠ [] ∧
      ∃ before after, records = before ++ after ∧ before.BreaksBehind after ∧
        job.runRecords before = .write "a\tb\n1\t2\n") ∧
    ofTokens .json ["keys[a,b]", "head[x]", "out..json"] = .ok rendering ∧
      (rendering.run document).failure = some (.fieldsBelowWidth 2) ∧
      (rendering.run document).written = "" := by
  intro job records rendering document
  have accepted : ofTokens .csv ["split:comma", "merge:tab", "head[a,b]", "-inhead"] = .ok job :=
    rfl
  have failed : (job.run records).failure = some .invalidText := rfl
  have written : (job.run records).written = "a\tb\n1\t2\n" := rfl
  have onLines : job.splitting ≠ .csv := by decide
  have filled : records ≠ [] := by decide
  obtain ⟨-, before, after, whole, breaks, done⟩ :=
    (run_failure_written accepted failed).2 rfl rfl onLines filled
  rw [written] at done
  have renders : ofTokens .json ["keys[a,b]", "head[x]", "out..json"] = .ok rendering := rfl
  have wider : (rendering.run document).failure = some (.fieldsBelowWidth 2) := rfl
  have clean := (run_failure_written renders wider).1 (.inr (.inr (.inl rfl)))
  exact ⟨⟨accepted, failed, rfl, onLines, filled, before, after, whole, breaks, done⟩, renders,
    wider, clean⟩

end Job

end Tabular
