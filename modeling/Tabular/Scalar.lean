import Tabular.Cell

/-!
# Scalars

The values that expressions take. A cell or a value of a document becomes a scalar when it is bound
to a variable, and the result of an expression becomes a cell.
-/

namespace Tabular

inductive Scalar where
  | number (x : Float)
  | text (s : String)
  | bool (b : Bool)
  /-- A list or an object of a document. -/
  | document (value : Json)

namespace Scalar

inductive Kind where
  | number
  | text
  | boolean
  | document
  deriving DecidableEq, Repr

def Kind.name : Kind → String
  | number => "number"
  | text => "text"
  | boolean => "boolean"
  | document => "document"

def kind : Scalar → Kind
  | number _ => .number
  | text _ => .text
  | bool _ => .boolean
  | document _ => .document

def ofCell : Cell → Scalar
  | .int n => number (Decimal.ofWord n)
  | .float x => number x
  | .text s =>
    match Decimal.readFinite? s.toList with
    | some x => number x
    | none => text s
  | .set texts => text (texts.joined ",")
  | .structured value => document value

def ofJson : Json → Scalar
  | .int n => number (Float.ofInt n)
  | .float x => number x
  | .string s => text s
  | .bool b => bool b
  | .null => text ""
  | value => document value

/-- The word of a whole number below nine quadrillions in magnitude. -/
def smallWord? (x : Float) : Option Int64 :=
  if Decimal.isWhole x && x.abs < 9000000000000000 then some (Decimal.toWord x) else none

def boolText (b : Bool) : String :=
  if b then "true" else "false"

def toCell : Scalar → Cell
  | number x =>
    match smallWord? x with
    | some n => .int n
    | none => .float x
  | text s => .text s
  | bool b => .text (boolText b)
  | document value => Cell.ofJson value

def display : Scalar → String
  | number x =>
    match smallWord? x with
    | some n => Decimal.wordText n
    | none => Decimal.plainStyle.write x
  | text s => s
  | bool b => boolText b
  | document value => value.plainText

/-- Equality of scalars. A document equals its text, and numbers are compared as numbers. -/
def equal : Scalar → Scalar → Bool
  | document value, text s | text s, document value => value.plainText == s
  | number x, number y => x == y
  | text s, text t => s == t
  | bool a, bool b => a == b
  | document a, document b => a == b
  | _, _ => false

def order? : Scalar → Scalar → Option Ordering
  | number x, number y =>
    if x < y then some .lt else if y < x then some .gt else if x == y then some .eq else none
  | text s, text t => some (compare s t)
  | _, _ => none

end Scalar

end Tabular
