import Tabular.Range.Basic
import Tabular.Table.Basic

/-!
# Grouping rows

The rows with the same key texts become one row. In every other column numbers are added up, and
other texts are collected; the first text of a column in a group decides which of the two it is.
-/

namespace Tabular

/-- What has been seen so far in one column of a group. -/
inductive Total where
  | empty
  | int (sum : Int64)
  | float (sum : Float)
  | set (texts : TextSet)

namespace Total

/-- The sum of two words, or of the numbers nearest to them where it is no word. -/
def addWord (sum n : Int64) : Total :=
  match Decimal.addWords? sum n with
  | some total => int total
  | none => float (Decimal.ofWord sum + Decimal.ofWord n)

def ofText (text : String) : Total :=
  match Cell.infer text with
  | .int n => int n
  | .float x => float x
  | _ => set (TextSet.ofList [text])

/-- Takes in one more text. What is no numeral does not change a sum. -/
def add (total : Total) (text : String) : Total :=
  match total with
  | empty => ofText text
  | int sum =>
    match Decimal.readWord? text.toList with
    | some n => addWord sum n
    | none =>
      match Decimal.readFloat? text.toList with
      | some x => float (Decimal.ofWord sum + x)
      | none => int sum
  | float sum =>
    match Decimal.readFloat? text.toList with
    | some x => float (sum + x)
    | none => float sum
  | set texts => set (texts.insert text)

def toCell : Total → Cell
  | empty => .text ""
  | int sum => .int sum
  | float sum => .float sum
  | set texts => .set texts

end Total

structure Grouping where
  keys : Range
  /-- A column with the number of rows comes last. -/
  counts : Bool := false
  /-- All columns that are no keys become one. -/
  folds : Bool := false
  deriving DecidableEq, Repr

structure Group where
  keys : List String
  totals : List Total
  count : Nat

namespace Group

/-- Stands between the texts of a key that has several columns. -/
def keySeparator : String := ":==:"

def texts (row : Row) (columns : List Nat) : List String :=
  columns.map fun column => (row[column]?.map Cell.render).getD ""

def start (keys : List String) (width : Nat) : Group :=
  ⟨keys, List.replicate width .empty, 0⟩

def add (group : Group) (values : List String) : Group :=
  { group with
    totals := List.zipWith Total.add group.totals values
    count := group.count + 1 }

/-- Two aggregated cells as one: numbers are added, and texts are joined. -/
def foldCells (joiner : String) (a b : Cell) : Cell :=
  match a, b with
  | .int m, .int n => (Total.addWord m n).toCell
  | .int m, .float y => .float (Decimal.ofWord m + y)
  | .float x, .int n => .float (x + Decimal.ofWord n)
  | .float x, .float y => .float (x + y)
  | a, b => .text (a.render ++ joiner ++ b.render)

def fold (joiner : String) : List Cell → Cell
  | [] => .text ""
  | first :: more => more.foldl (foldCells joiner) first

def row (grouping : Grouping) (joiner : String) (group : Group) : Row :=
  let values := group.totals.map Total.toCell
  group.keys.map Cell.text ++
    (if grouping.folds then [fold joiner values] else values) ++
    (if grouping.counts then [.int (Int64.ofNat group.count)] else [])

/-- The groups of some rows by the joined texts of their keys, in the order in which they begin. -/
def collect (keys values : List Nat) (rows : List Row) : List (String × Group) :=
  rows.foldl (fun groups row =>
    let key := texts row keys
    Keyed.update (keySeparator.intercalate key) (start key values.length)
      (fun group => group.add (texts row values)) groups) []

end Group

namespace Grouping

def labels (grouping : Grouping) (source : List String) (keys values : List Nat) : List String :=
  let pick (columns : List Nat) : List String := columns.map fun column => source[column]?.getD ""
  pick keys ++
    (if grouping.folds then ["+".intercalate (pick values)] else pick values) ++
    (if grouping.counts then ["count"] else [])

end Grouping

namespace Table

/-- Groups the rows. The width of the first row decides which columns there are. -/
def group (grouping : Grouping) (joiner : String) (table : Table) : Table :=
  match table.rows with
  | [] => table
  | first :: _ =>
    let keys := grouping.keys.positionsInBounds first.length
    let values := (List.range first.length).filter fun column => !keys.contains column
    let groups := Group.collect keys values table.rows
    let labels :=
      if table.derivesLabels then grouping.labels table.labels keys values else table.labels
    { table with
      labels
      rows := groups.map fun (_, group) => group.row grouping joiner
      keyCount := keys.length
      typed := true }

end Table

end Tabular
