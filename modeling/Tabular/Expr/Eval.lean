import Tabular.Expr.Basic
import Tabular.Pattern.Meaning
import Tabular.Scalar

/-!
# The values of expressions

An expression has a value or an error under bindings of its variables. The right side of `&&` and
`||` and the branch that a conditional does not take are not evaluated.
-/

namespace Tabular.Expr

abbrev Bindings := String → Option Scalar

inductive EvalError where
  | unbound (name : String)
  | negation (kind : Scalar.Kind)
  | inversion (kind : Scalar.Kind)
  | operand (op : BinaryOp) (kind : Scalar.Kind)
  | divisionByZero
  | comparison (left right : Scalar.Kind)
  | condition (kind : Scalar.Kind)
  | pattern (source : String) (error : Pattern.ReadError)

def EvalError.message : EvalError → String
  | unbound name => "no value bound to '" ++ name ++ "'"
  | negation kind => "cannot negate " ++ kind.name
  | inversion kind => "cannot apply '!' to " ++ kind.name
  | operand op kind => "cannot apply '" ++ op.symbol ++ "' to " ++ kind.name
  | divisionByZero => "division by zero"
  | comparison left right => "cannot compare " ++ left.name ++ " with " ++ right.name
  | condition kind => "condition must be boolean, got " ++ kind.name
  | pattern source error => "invalid pattern: " ++ error.message source

abbrev Result := Except EvalError Scalar

def applyUnary : UnaryOp → Scalar → Result
  | .negate, .number x => .ok (.number (-x))
  | .not, .bool b => .ok (.bool (!b))
  | .negate, value => .error (.negation value.kind)
  | .not, value => .error (.inversion value.kind)

/-- Adds numbers; anything is joined to text as text. -/
def add : Scalar → Scalar → Result
  | .number x, .number y => .ok (.number (x + y))
  | .text s, value => .ok (.text (s ++ value.display))
  | value, .text s => .ok (.text (value.display ++ s))
  | value, _ => .error (.operand .add value.kind)

def divide (divide : Float → Float → Float) (x y : Float) : Result :=
  if y == 0 then .error .divisionByZero else .ok (.number (divide x y))

/-- The two numbers that an operator takes, or the first operand that is none. -/
def numbers (op : BinaryOp) : Scalar → Scalar → Except EvalError (Float × Float)
  | .number x, .number y => .ok (x, y)
  | .number _, value | value, _ => .error (.operand op value.kind)

def ordered (accepts : Ordering → Bool) (left right : Scalar) : Result :=
  match left.order? right with
  | some order => .ok (.bool (accepts order))
  | none => .error (.comparison left.kind right.kind)

/-- Whether the pattern that the right side says occurs in the text of the left side. -/
def occurs (left right : Scalar) : Except EvalError Bool :=
  match Pattern.read right.display with
  | .ok p => .ok (p.occursIn left.display)
  | .error e => .error (.pattern right.display e)

/-- An operand of `&&` or `||`. -/
def truth (op : BinaryOp) : Scalar → Except EvalError Bool
  | .bool b => .ok b
  | value => .error (.operand op value.kind)

def applyBinary (op : BinaryOp) (left right : Scalar) : Result :=
  match op with
  | .add => add left right
  | .sub => do
    let (x, y) ← numbers op left right
    return .number (x - y)
  | .mul => do
    let (x, y) ← numbers op left right
    return .number (x * y)
  | .div => do
    let (x, y) ← numbers op left right
    divide (· / ·) x y
  | .rem => do
    let (x, y) ← numbers op left right
    divide Decimal.remainder x y
  | .pow => do
    let (x, y) ← numbers op left right
    return .number (x ^ y)
  | .eq => .ok (.bool (left.equal right))
  | .ne => .ok (.bool (!left.equal right))
  | .lt => ordered (·.isLT) left right
  | .le => ordered (·.isLE) left right
  | .gt => ordered (·.isGT) left right
  | .ge => ordered (·.isGE) left right
  | .like => do return .bool (← occurs left right)
  | .unlike => do return .bool (!(← occurs left right))
  | .and => do return .bool ((← truth op left) && (← truth op right))
  | .or => do return .bool ((← truth op left) || (← truth op right))

def eval (env : Bindings) : Expr → Result
  | number x => .ok (.number x)
  | text s => .ok (.text s)
  | bool b => .ok (.bool b)
  | var name =>
    match env name with
    | some value => .ok value
    | none => .error (.unbound name)
  | unary op operand => do applyUnary op (← operand.eval env)
  | binary .and left right => do
    if ← truth .and (← left.eval env) then return .bool (← truth .and (← right.eval env))
    else return .bool false
  | binary .or left right => do
    if ← truth .or (← left.eval env) then return .bool true
    else return .bool (← truth .or (← right.eval env))
  | binary op left right => do applyBinary op (← left.eval env) (← right.eval env)
  | conditional condition yes no => do
    match ← condition.eval env with
    | .bool true => yes.eval env
    | .bool false => no.eval env
    | value => throw (.condition value.kind)

end Tabular.Expr
