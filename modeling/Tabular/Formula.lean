import Tabular.Fault
import Tabular.Expr.Eval
import Tabular.Expr.Slot

/-!
# Formulas

An expression over the columns of a row, in which `[N]` stands for the cell of column `N`.
-/

namespace Tabular

structure Formula where
  source : String
  expr : Expr
  /-- The columns that the formula refers to, each of them once. -/
  columns : List Nat
  deriving DecidableEq, Repr

namespace Formula

def columnName (column : Nat) : String :=
  "col" ++ Decimal.natText column

def pieces (source : String) : List Expr.Piece :=
  Expr.pieces (fun c => Unicode.isDecimalDigit c.toNat) source

/-- The expression's text, in which columns have names. -/
def named (source : String) : String :=
  Expr.fillSlots
    (fun body => ((Decimal.readIndex? body).elim "" columnName).toList)
    (pieces source)

/-- Reads a formula. A column that is too large, or that is written with other than ASCII digits, is
refused before the expression is read. -/
def read (source : String) : Except Cause Formula := do
  let slots := Expr.slots (pieces source)
  match slots.find? (fun body => (Decimal.readIndex? body).isNone) with
  | some body => throw (.columnPlaceholder (String.ofList (Expr.slotText body)))
  | none =>
    let expr ← (Expr.read (named source)).mapError Cause.expression
    return ⟨source, expr, Expr.firsts (slots.filterMap Decimal.readIndex?)⟩

/-- The values of the columns of a row; a column that the row does not have is unbound. -/
def bindings (formula : Formula) (row : Row) : Expr.Bindings := fun name => do
  let column ← formula.columns.find? (columnName · == name)
  let cell ← row[column]?
  return Scalar.ofCell cell

/-- The value for a row, or the text of the error where there is none. -/
def value (formula : Formula) (row : Row) : Cell :=
  match formula.expr.eval (formula.bindings row) with
  | .ok value => value.toCell
  | .error error => .text error.message

/-- The label of a column of values: the source with labels in the place of columns. -/
def label (formula : Formula) (labels : List String) : String :=
  Expr.fillSlots
    (fun body =>
      ((Decimal.readIndex? body).bind (labels[·]?)).elim (Expr.slotText body) String.toList)
    (pieces formula.source)

def extendRow (formulas : List Formula) (row : Row) : Row :=
  row ++ formulas.map (·.value row)

def extendLabels (formulas : List Formula) (labels : List String) : List String :=
  labels ++ formulas.map (·.label labels)

end Formula

end Tabular
