import Tabular.Delimited.Record
import Tabular.Document.Flatten
import Tabular.Document.Reader
import Tabular.Table.Printer

/-!
# Carrying out jobs

What is written for an input. Rows are written one by one where that is possible; otherwise all of
them are collected in a table, which is grouped, extended and sorted before it is written.
-/

namespace Tabular

/-- What has been written, and why no more was written if something went wrong. -/
structure Outcome where
  written : String
  failure : Option Cause

namespace Outcome

def nothing : Outcome := ⟨"", none⟩

def write (text : String) : Outcome := ⟨text, none⟩

def fail (cause : Cause) : Outcome := ⟨"", some cause⟩

def ofResult : Except Cause String → Outcome
  | .ok text => write text
  | .error cause => fail cause

/-- One outcome after another; behind a failure nothing is written. -/
def followedBy (first second : Outcome) : Outcome :=
  match first.failure with
  | some _ => first
  | none => ⟨first.written ++ second.written, second.failure⟩

def join (outcomes : List Outcome) : Outcome :=
  outcomes.foldr followedBy nothing

def writeLines (lines : List String) : Outcome :=
  write (String.join (lines.map (· ++ "\n")))

end Outcome

namespace Job

/-- The table of some rows. Given labels take the place of those of the input. -/
def tableOf (job : Job) (labels : List String) (rows : List Row) (typed : Bool) : Table :=
  match job.labels with
  | some given => { labels := given, rows, typed, explicitLabels := true }
  | none => { labels, rows, typed }

/-- Groups, extends and sorts a table, as far as the job asks for it. -/
def transform (job : Job) (table : Table) : Table :=
  let grouped := job.grouping.elim table (fun grouping => table.group grouping job.inner)
  let extended := if job.formulas.isEmpty then grouped else grouped.compute job.formulas
  job.sorting.elim extended extended.sort

def finish (job : Job) (table : Table) : Outcome :=
  .ofResult ((job.transform table).write job)

def rowOf (job : Job) (fields : List String) : Row :=
  (job.selection.record fields).map Cell.text

/-- The labels above rows that are written one by one. -/
def streamedLabels (job : Job) (fields : List String) : List String :=
  job.labels.getD (Formula.extendLabels job.formulas (job.selection.header fields))

def streamedLine (job : Job) (index : Nat) (fields : List String) : String :=
  if index = 0 && !job.headless then
    if job.hidesLabels then "" else Delimited.writeFields job.joining (job.streamedLabels fields)
  else if job.rows.contains index none then
    Delimited.writeRow job.joining job.wrap (Formula.extendRow job.formulas (job.rowOf fields))
  else ""

/-- Writes rows as they are read. Without labels in the input, given labels come first. -/
def stream (job : Job) (records : List (List String)) : String :=
  let header :=
    if job.hidesLabels || !job.headless then ""
    else (job.labels.map (Delimited.writeFields job.joining)).getD ""
  header ++ String.join (records.zipIdx.map fun (fields, index) => job.streamedLine index fields)

/-- The table of all selected records. The first record has the labels unless the job is headless.
-/
def collect (job : Job) (records : List (List String)) : Table :=
  let length := if job.rows.needsLength then some records.length else none
  let labels :=
    if job.headless then [] else (records.head?.map job.selection.header).getD []
  let selected := records.zipIdx.filter fun (_, index) =>
    (job.headless || index != 0) && job.rows.contains index length
  job.tableOf labels (selected.map fun (fields, _) => job.rowOf fields) false

def runRecords (job : Job) (input : Text.Input) : Outcome :=
  let (records, flaw) := Delimited.records job.splitting input
  if job.needsAllRows then
    match flaw with
    | some cause => .fail cause
    | none => job.finish (job.collect records)
  else ⟨job.stream records, flaw⟩

def selectDocuments (job : Job) (documents : List Json) : List Json :=
  match job.condition with
  | some condition => documents.filter condition.holds
  | none => documents

def flattenDocuments (job : Job) (keys : List String) (documents : List Json) : Outcome :=
  let tree := KeyTree.ofKeys keys
  job.finish (job.tableOf keys (documents.flatMap (Document.flatten tree keys)) true)

/-- Lists the key paths of the selected documents, or writes what they hold at the requested keys.
-/
def runDocuments (job : Job) (documents : List Json) : Outcome :=
  let documents := job.selectDocuments documents
  match job.keys with
  | none => .fail .noKeys
  | some [] => .writeLines ((Document.keyPaths documents).map KeyPath.display)
  | some keys => job.flattenDocuments keys documents

/-- Repeats a line, unless it holds documents and none of them is selected. -/
def echoLine (job : Job) (line : String) : Outcome :=
  let keeps : Bool :=
    match Document.readJsonLine? line with
    | some documents => documents.any fun document => job.condition.all (·.holds document)
    | none => true
  if keeps then .writeLines [line] else .nothing

/-- Writes the documents of consecutive lines, if any of them is selected. -/
def flushRun (job : Job) (keys : List String) (documents : List Json) : Outcome :=
  match job.selectDocuments documents with
  | [] => .nothing
  | selected => job.flattenDocuments keys selected

/-- The outcome for lines behind a run of documents that has not been written yet. A line without
documents ends the run and is repeated; a flaw of the input comes behind all lines. -/
def runLines (job : Job) (keys : List String) (flaw : Option Cause) :
    List Json → List String → Outcome
  | pending, [] =>
    match flaw with
    | some cause => .fail cause
    | none => job.flushRun keys pending
  | pending, line :: lines =>
    match Document.readJsonLine? line with
    | some documents => runLines job keys flaw (pending ++ documents) lines
    | none =>
      ((job.flushRun keys pending).followedBy (.writeLines [line])).followedBy
        (runLines job keys flaw [] lines)

def runJsonLines (job : Job) (input : Text.Input) : Outcome :=
  let (lines, broken) := Text.validLines input.lines
  let lines := lines.filter fun line => !Text.isBlankText line
  let flaw : Option Cause := if broken then some .invalidText else none
  match job.keys with
  | none => (Outcome.join (lines.map job.echoLine)).followedBy ⟨"", flaw⟩
  | some [] =>
    match flaw with
    | some cause => .fail cause
    | none => job.runDocuments (lines.flatMap fun line => (Document.readJsonLine? line).getD [])
  | some keys => job.runLines keys flaw [] lines

def readDocuments (job : Job) (text : String) : Except Cause (List Json) :=
  match job.mode with
  | .yaml => Document.readYaml text
  | _ => Document.readJson text

def runText (job : Job) (input : Text.Input) : Outcome :=
  match Text.text? input with
  | none => .fail .invalidText
  | some text =>
    if Text.isBlankText text then .fail .noData
    else
      match job.readDocuments text with
      | .ok documents => job.runDocuments documents
      | .error cause => .fail cause

def run (job : Job) (input : Text.Input) : Outcome :=
  if input.isEmpty then .fail .noData
  else
    match job.mode with
    | .csv => job.runRecords input
    | .jsonLines => job.runJsonLines input
    | .json | .yaml => job.runText input

end Job

end Tabular
