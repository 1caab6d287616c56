import Tabular.Cell
import Tabular.Text.Split
import Tabular.Yaml.Printer

/-!
# Tables in columns

Every column is as wide as its widest label or line, with some blanks behind it. A cell with several
lines goes on below itself, where the other columns are blank.
-/

namespace Tabular.Layout

/-- The lines of a text without what is blank at its end. -/
def linesOf (s : String) : List String :=
  Text.splitAtChar '\n' (Text.trimRight s)

/-- The lines of a cell: one for each text of a set, and the YAML lines of a list or an object. -/
def cellLines : Cell → List String
  | .set texts => if texts.isEmpty then [""] else texts.toList
  | .structured value => linesOf (Yaml.write value)
  | cell => [cell.render]

def gap : Nat := 4

def padRight (width : Nat) (s : String) : String :=
  String.ofList (s.toList ++ List.replicate (width - s.length) ' ')

abbrev Block := List (List String)

def columnCount (labels : Option (List String)) (blocks : List Block) : Nat :=
  blocks.foldl (fun n block => max n block.length) ((labels.map List.length).getD 0)

def widest (lines : List String) : Nat :=
  lines.foldl (fun n line => max n line.length) 0

def columnWidth (labels : Option (List String)) (blocks : List Block) (column : Nat) : Nat :=
  let label := ((labels.bind (·[column]?)).map String.length).getD 0
  blocks.foldl (fun n block => max n (widest (block[column]?.getD []))) label

def writeLine (widths : List Nat) (texts : List String) : String :=
  String.join (List.zipWith (fun width text => padRight (width + gap) text) widths texts) ++ "\n"

/-- How many lines a row takes; a row without cells takes one. -/
def height (block : Block) : Nat :=
  block.foldl (fun n lines => max n lines.length) 1

def writeBlock (widths : List Nat) (block : Block) : String :=
  String.join ((List.range (height block)).map fun line =>
    writeLine widths ((List.range widths.length).map fun column =>
      ((block[column]?).bind (·[line]?)).getD ""))

def write (labels : Option (List String)) (rows : List Row) : String :=
  let blocks := rows.map (·.map cellLines)
  let widths := (List.range (columnCount labels blocks)).map (columnWidth labels blocks)
  let header :=
    match labels with
    | some labels =>
      writeLine widths ((List.range widths.length).map fun column => labels[column]?.getD "")
    | none => ""
  header ++ String.join (blocks.map (writeBlock widths))

end Tabular.Layout
