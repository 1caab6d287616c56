import Tabular.Fault
import Tabular.Expr.Eval
import Tabular.Expr.Slot
import Tabular.Document.Lookup

/-!
# Conditions on documents

An expression over the values of a document, in which `[a.b]` stands for the value at a key path.
-/

namespace Tabular

structure Condition where
  source : String
  expr : Expr
  /-- The names of each key path that the condition refers to. -/
  paths : List (List String)
  deriving DecidableEq, Repr

namespace Condition

/-- The name by which the expression knows the key path at a place. -/
def pathName (place : Nat) : String :=
  "key" ++ Decimal.natText place

def pieces (source : String) : List Expr.Piece :=
  Expr.pieces (fun c => c != '[' && c != ']') source

/-- The key paths of a source, without the blanks around them, each of them once. -/
def keys (source : String) : List (List Char) :=
  Expr.firsts ((Expr.slots (pieces source)).map Text.trimChars)

def named (source : String) : String :=
  let keys := keys source
  Expr.fillSlots (fun body => (pathName (keys.idxOf (Text.trimChars body))).toList) (pieces source)

def read (source : String) : Except Cause Condition := do
  let expr ← (Expr.read (named source)).mapError Cause.expression
  return ⟨source, expr, (keys source).map fun key => KeyPath.split (String.ofList key)⟩

/-- The values of a document at the key paths. -/
def bindings (condition : Condition) (document : Json) : Expr.Bindings := fun name =>
  (condition.paths.zipIdx.find? (fun (_, place) => pathName place == name)).map fun (path, _) =>
    Scalar.ofJson (Document.lookup path document)

/-- Whether the expression is true of a document. One that is no truth value, or that has no value,
does not hold. -/
def holds (condition : Condition) (document : Json) : Bool :=
  match condition.expr.eval (condition.bindings document) with
  | .ok (.bool b) => b
  | _ => false

end Condition

end Tabular
