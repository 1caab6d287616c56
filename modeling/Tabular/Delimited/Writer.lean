import Tabular.Cell
import Tabular.Csv.Writer
import Tabular.Delimited.Delimiter

/-!
# Writing lines

A line for the labels and one for each row. Cells may be wrapped in a text; labels never are.
-/

namespace Tabular.Delimited

def wrapped (wrap : Option String) (cell : Cell) : String :=
  let around := wrap.getD ""
  around ++ cell.render ++ around

def writeFields (joining : Joining) (fields : List String) : String :=
  match joining with
  | .csv => String.ofList (Csv.writeRecord (fields.map String.toList))
  | .literal delimiter => delimiter.intercalate fields ++ "\n"

def writeRow (joining : Joining) (wrap : Option String) (row : Row) : String :=
  writeFields joining (row.map (wrapped wrap))

/-- All rows on one line, each of them joined with `inner`. Nothing is quoted. -/
def writeMerged (inner delimiter : String) (wrap : Option String) (rows : List Row) : String :=
  delimiter.intercalate (rows.map fun row => inner.intercalate (row.map (wrapped wrap))) ++ "\n"

end Tabular.Delimited
