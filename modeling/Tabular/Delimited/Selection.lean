import Tabular.Delimited.Edit
import Tabular.Keyed

/-!
# Selecting fields

The fields of a record that go into a row, with their edits.
-/

namespace Tabular

structure Selection where
  columns : Range
  /-- The edits of each column that has some, by ascending column. -/
  edits : List (Nat × List Edit)
  deriving DecidableEq, Repr

namespace Selection

def all : Selection := ⟨.all, []⟩

def editsAt (selection : Selection) (column : Nat) : List Edit :=
  ((selection.edits.find? (·.1 == column)).map (·.2)).getD []

def addEdit (selection : Selection) (column : Nat) (edit : Edit) : Selection :=
  let edits := selection.editsAt column ++ [edit]
  { selection with edits := Keyed.insertSorted column edits selection.edits }

/-- The edits at a position, which may lie outside every record. -/
def editsAtPosition (selection : Selection) (position : Int) : List Edit :=
  if position < 0 then [] else selection.editsAt position.toNat

def record (selection : Selection) (fields : List String) : List String :=
  (selection.columns.select fields).flatMap fun (field, position) =>
    let (word, added) := Edit.applyAll (selection.editsAtPosition position) (field.getD "")
    word :: added

/-- The labels of the selected fields. They are not edited; an added field has the label of the
field that it was made of. -/
def header (selection : Selection) (labels : List String) : List String :=
  (selection.columns.select labels).flatMap fun (label, position) =>
    let added := (selection.editsAtPosition position).countP Edit.adds
    List.replicate (added + 1) (label.getD "")

end Selection

end Tabular
