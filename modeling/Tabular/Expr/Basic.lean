/-!
# Expressions

The trees of arithmetic and boolean expressions over named values.
-/

namespace Tabular

inductive UnaryOp where
  | negate
  | not
  deriving DecidableEq, Repr

inductive BinaryOp where
  | or
  | and
  | eq
  | ne
  | lt
  | le
  | gt
  | ge
  | like
  | unlike
  | add
  | sub
  | mul
  | div
  | rem
  | pow
  deriving DecidableEq, Repr

def BinaryOp.symbol : BinaryOp → String
  | or => "||"
  | and => "&&"
  | eq => "=="
  | ne => "!="
  | lt => "<"
  | le => "<="
  | gt => ">"
  | ge => ">="
  | like => "=~"
  | unlike => "!~"
  | add => "+"
  | sub => "-"
  | mul => "*"
  | div => "/"
  | rem => "%"
  | pow => "**"

inductive Expr where
  | number (x : Float)
  | text (s : String)
  | bool (b : Bool)
  | var (name : String)
  | unary (op : UnaryOp) (operand : Expr)
  | binary (op : BinaryOp) (left right : Expr)
  | conditional (condition yes no : Expr)
  deriving DecidableEq, Repr

namespace Expr

/-- The names of the variables from left to right, with repetitions. -/
def occurrences : Expr → List String
  | number _ | text _ | bool _ => []
  | var name => [name]
  | unary _ operand => operand.occurrences
  | binary _ left right => left.occurrences ++ right.occurrences
  | conditional condition yes no => condition.occurrences ++ yes.occurrences ++ no.occurrences

/-- Adds the variables that are not in the list yet, from left to right. -/
def addVariables (names : List String) : Expr → List String
  | number _ | text _ | bool _ => names
  | var name => if name ∈ names then names else names ++ [name]
  | unary _ operand => operand.addVariables names
  | binary _ left right => right.addVariables (left.addVariables names)
  | conditional condition yes no =>
    no.addVariables (yes.addVariables (condition.addVariables names))

/-- Every variable once, in the order of first occurrence. -/
def varNames (e : Expr) : List String :=
  e.addVariables []

end Expr

end Tabular
