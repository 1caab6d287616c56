import Tabular.Json.Basic
import Tabular.Json.Token
import Tabular.Decimal.Numeral

/-!
# What plain scalars stand for

A plain scalar is `null`, a truth value, an integer, a float, or text, whichever it is first.
-/

namespace Tabular.Yaml

/-- The whole numbers that do not fit into 64 bits are refused when they still fit into 128. -/
inductive Number where
  | int (n : Int)
  | float (x : Float)
  | outOfRange
  deriving DecidableEq

def isNullText (s : String) : Bool :=
  s == "null" || s == "Null" || s == "NULL" || s == "~"

def bool? (s : String) : Option Bool :=
  if s == "true" || s == "True" || s == "TRUE" then some true
  else if s == "false" || s == "False" || s == "FALSE" then some false
  else none

def dropSign : List Char → List Char
  | '+' :: cs | '-' :: cs => cs
  | cs => cs

/-- A zero with further digits behind it is text. -/
def isPaddedNumber (cs : List Char) : Bool :=
  match dropSign cs with
  | '0' :: c :: more => (c :: more).all Char.isDigit
  | _ => false

def digitsIn? (base : Nat) : List Char → Option Nat
  | [] => none
  | cs => cs.foldlM (fun n c =>
      (Json.hexDigit? c).bind fun digit => if digit < base then some (n * base + digit) else none) 0

def based? : List Char → Option Nat
  | '0' :: 'x' :: cs => digitsIn? 16 cs
  | '0' :: 'o' :: cs => digitsIn? 8 cs
  | '0' :: 'b' :: cs => digitsIn? 2 cs
  | _ => none

def magnitude? (cs : List Char) : Option Nat :=
  (based? cs).or (if isPaddedNumber cs then none else digitsIn? 10 cs)

/-- A whole number with an optional sign. A plus sign does not change what padding means. -/
def integer? (cs : List Char) : Option Int :=
  match cs with
  | '-' :: more => (magnitude? more).map fun n => -(n : Int)
  | '+' :: more => (magnitude? more).map fun n => (n : Int)
  | _ => (magnitude? cs).map fun n => (n : Int)

def ofInteger? (n : Int) : Option Number :=
  if -0x8000000000000000 ≤ n ∧ n < 0x10000000000000000 then some (.int n)
  else if -0x80000000000000000000000000000000 ≤ n ∧ n < 0x100000000000000000000000000000000 then
    some .outOfRange
  else none

def int? (cs : List Char) : Option Number :=
  (integer? cs).bind ofInteger?

def float? (s : String) : Option Float :=
  match s with
  | ".inf" | ".Inf" | ".INF" | "+.inf" | "+.Inf" | "+.INF" => some Decimal.infinity
  | "-.inf" | "-.Inf" | "-.INF" => some (-Decimal.infinity)
  | ".nan" | ".NaN" | ".NAN" => some Decimal.notANumber
  | _ =>
    match s.toList with
    | '+' :: '+' :: _ | '+' :: '-' :: _ => none
    | cs => Decimal.readFinite? cs

inductive Plain where
  | null
  | bool (b : Bool)
  | number (n : Number)
  | text
  deriving DecidableEq

def resolve (s : String) : Plain :=
  if s.isEmpty || isNullText s then .null
  else
    match bool? s with
    | some b => .bool b
    | none =>
      match int? s.toList with
      | some n => .number n
      | none =>
        if isPaddedNumber s.toList then .text
        else
          match float? s with
          | some x => .number (.float x)
          | none => .text

end Tabular.Yaml
