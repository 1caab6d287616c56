import Tabular.Condition
import Tabular.Delimited.Delimiter
import Tabular.Delimited.Selection
import Tabular.Table.Group
import Tabular.Table.Sort

/-!
# Jobs

All that a command asks for: how the input is read, what is taken from it, what is done with it, and
how it is written.
-/

namespace Tabular

inductive Mode where
  /-- Lines of fields. -/
  | csv
  /-- One JSON text. -/
  | json
  /-- A JSON text on each line. -/
  | jsonLines
  /-- A stream of YAML documents. -/
  | yaml
  deriving DecidableEq, Repr

namespace Mode

def name : Mode → String
  | csv => "csv"
  | json => "jp"
  | jsonLines => "jpl"
  | yaml => "yp"

def all : List Mode := [csv, json, jsonLines, yaml]

def ofName? (name : String) : Option Mode :=
  all.find? (·.name == name)

/-- Whether the input holds documents. -/
def isDocument (mode : Mode) : Bool :=
  mode != csv

end Mode

inductive OutputForm where
  | lines
  | table
  | json
  deriving DecidableEq, Repr

structure Job where
  mode : Mode
  splitting : Splitting := .blanks
  joining : Joining := .csv
  /-- Joins all rows onto one line. -/
  lineJoiner : Option String := none
  /-- Put on both sides of every cell. -/
  wrap : Option String := none
  rows : Range := .all
  selection : Selection := .all
  grouping : Option Grouping := none
  sorting : Option Sorting := none
  form : OutputForm := .lines
  /-- The levels of nested JSON. -/
  levels : Nat := 0
  labels : Option (List String) := none
  formulas : List Formula := []
  /-- The requested key paths of documents; if there are none, the paths are listed instead. -/
  keys : Option (List String) := none
  condition : Option Condition := none
  /-- The first record is a row like any other. -/
  headless : Bool := false
  hidesLabels : Bool := false
  deriving DecidableEq, Repr

namespace Job

def ofMode (mode : Mode) : Job :=
  match mode with
  | .csv => { mode }
  | .jsonLines => { mode, form := .table, joining := .literal " " }
  | .json | .yaml => { mode, form := .table }

/-- What stands between texts that are joined inside one cell. -/
def inner (job : Job) : String :=
  job.joining.inner

/-- Whether all rows are needed before the first one can be written. -/
def needsAllRows (job : Job) : Bool :=
  job.lineJoiner.isSome || job.grouping.isSome || job.sorting.isSome || job.form != .lines ||
    job.rows.needsLength

end Job

end Tabular
