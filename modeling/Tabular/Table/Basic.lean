import Tabular.Formula

/-!
# Tables

Rows under labels, and the columns that formulas add.
-/

namespace Tabular

structure Table where
  labels : List String
  rows : List Row
  /-- How many columns in front hold the keys of groups. -/
  keyCount : Nat := 0
  /-- Whether cells carry their types already, so that text stays text. -/
  typed : Bool := false
  /-- Whether the labels were given, so that none are derived. -/
  explicitLabels : Bool := false

namespace Table

/-- The width of the first row; it decides which columns there are. -/
def width (table : Table) : Nat :=
  (table.rows.head?.map List.length).getD 0

/-- The labels, if there are any and they were not given. -/
def derivesLabels (table : Table) : Bool :=
  !table.explicitLabels && !table.labels.isEmpty

def compute (formulas : List Formula) (table : Table) : Table :=
  let labels :=
    if table.derivesLabels then Formula.extendLabels formulas table.labels else table.labels
  { table with
    labels
    rows := table.rows.map (Formula.extendRow formulas) }

end Table

end Tabular
