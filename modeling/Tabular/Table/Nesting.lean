import Tabular.Cell
import Tabular.Fault
import Tabular.Json.Printer

/-!
# Tables as documents

Rows become objects. With nesting levels, the rows with the same text in the first column become one
object that holds the rest of them in a list, and so on for each level.
-/

namespace Tabular.Nesting

/-- The names of the members, level by level: each of the first labels is followed by the name of
the list below it. This is the next label with an `s`, or at the last level the label with `-group`.
-/
def deriveNames (labels : List String) (levels keyCount : Nat) : Except Cause (List String) :=
  if levels = 0 then .ok labels
  else if keyCount < levels then .error (.levelsBeyondKeys levels keyCount)
  else
    .ok ((labels.zipIdx.map fun (label, column) =>
      if column + 1 = levels then [label, label ++ "-group"]
      else if column < levels then [label, (labels[column + 1]?.getD "") ++ "s"]
      else [label]).flatten)

/-- The labels, with names by position for the columns that have none. -/
def positionalNames (labels : List String) (width : Nat) : List String :=
  labels ++ (List.range' labels.length (width - labels.length)).map fun column =>
    "col" ++ Decimal.natText column

def objectOf (names : List String) (cells : Row) : Json :=
  Json.ofMembers (List.zip names (cells.map Cell.toJson))

def bucketsAt (column : Nat) (rows : List Row) : List (String × List Row) :=
  rows.foldl (fun buckets row =>
    Keyed.update ((row[column]?.map Cell.render).getD "") [] (· ++ [row]) buckets) []

/-- The list of objects for some rows that are alike in the columns before `level`. `more` counts
the levels below this one. -/
def nest (names : List String) : Nat → Nat → List Row → Json
  | more, level, rows =>
    .array ((bucketsAt level rows).map fun (key, bucket) =>
      let children : Json :=
        match more with
        | 0 =>
          .array (bucket.map fun row =>
            objectOf (names.drop (2 * level + 2)) (row.drop (level + 1)))
        | more + 1 => nest names more (level + 1) bucket
      Json.ofMembers [(names[2 * level]?.getD "", .string key),
        (names[2 * level + 1]?.getD "", children)])

def documentOf (names : List String) (levels : Nat) (rows : List Row) : Json :=
  match levels with
  | 0 => .array (rows.map (objectOf names))
  | more + 1 => nest names more 0 rows

/-- The document of a table. Names that were given decide the number of levels, which is the number
of names beyond the width of the first row. -/
def document (labels : List String) (rows : List Row) (explicit : Bool) (levels keyCount : Nat) :
    Except Cause Json :=
  match rows with
  | [] => .ok (.array [])
  | first :: _ =>
    if explicit then
      if labels.length < first.length then .error (.fieldsBelowWidth first.length)
      else .ok (documentOf labels (labels.length - first.length) rows)
    else do
      let width := rows.foldl (fun n row => max n row.length) 0
      let names ← deriveNames (positionalNames labels width) levels keyCount
      return documentOf names levels rows

end Tabular.Nesting
