import Tabular.Delimited.Writer
import Tabular.Job.Basic
import Tabular.Table.Layout
import Tabular.Table.Nesting

/-!
# Writing tables

A table in the form that a job asks for.
-/

namespace Tabular

namespace Table

/-- The text of a table. Rows that go onto one line have no labels and are never nested. -/
def write (job : Job) (table : Table) : Except Cause String :=
  let labels := if job.hidesLabels || table.labels.isEmpty then none else some table.labels
  match job.lineJoiner with
  | some joiner => .ok (Delimited.writeMerged job.inner joiner job.wrap table.rows)
  | none =>
    match job.form with
    | .lines =>
      let header := (labels.map (Delimited.writeFields job.joining)).getD ""
      .ok (header ++ String.join (table.rows.map (Delimited.writeRow job.joining job.wrap)))
    | .table => .ok (Layout.write labels table.rows)
    | .json => do
      let document ←
        Nesting.document table.labels table.rows table.explicitLabels job.levels table.keyCount
      return document.compact ++ "\n"

end Table

end Tabular
