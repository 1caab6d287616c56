import Tabular.Json.Basic
import Tabular.Decimal.Shortest

/-!
# JSON text

The compact form: no blanks, members in the order of the object, and characters outside ASCII as
they are.
-/

namespace Tabular.Json

/-- Numbers between a hundred-thousandth and ten quadrillions are written without an exponent. A
float keeps a zero behind the point. -/
def floatStyle : Decimal.Style where
  lowest := -5
  highest := 15
  wholeTail := ".0"
  exponentSign := "+"
  nan := "null"
  infinity := "null"

def hexDigit (n : Nat) : Char :=
  n.digitChar

def controlEscape (n : Nat) : List Char :=
  ['\\', 'u', '0', '0', hexDigit (n / 16), hexDigit (n % 16)]

def escapeChar (c : Char) : List Char :=
  match c with
  | '"' => ['\\', '"']
  | '\\' => ['\\', '\\']
  | '\n' => ['\\', 'n']
  | '\r' => ['\\', 'r']
  | '\t' => ['\\', 't']
  | '\x08' => ['\\', 'b']
  | '\x0c' => ['\\', 'f']
  | c => if c.toNat < 0x20 then controlEscape c.toNat else [c]

def quoted (s : String) : List Char :=
  '"' :: s.toList.flatMap escapeChar ++ ['"']

mutual

def chars : Json → List Char
  | null => "null".toList
  | bool b => if b then "true".toList else "false".toList
  | int n => Decimal.intChars n
  | float x => (floatStyle.write x).toList
  | string s => quoted s
  | array [] => "[]".toList
  | array (item :: items) => '[' :: chars item ++ itemChars items ++ [']']
  | object [] => ['\x7b', '\x7d']
  | object ((name, value) :: members) =>
    '\x7b' :: quoted name ++ ':' :: chars value ++ memberChars members ++ ['\x7d']

def itemChars : List Json → List Char
  | [] => []
  | item :: items => ',' :: chars item ++ itemChars items

def memberChars : List (String × Json) → List Char
  | [] => []
  | (name, value) :: members => ',' :: quoted name ++ ':' :: chars value ++ memberChars members

end

def compact (value : Json) : String :=
  String.ofList value.chars

/-- A string without quotes, nothing for `null`, and the compact text of anything else. -/
def plainText : Json → String
  | string s => s
  | null => ""
  | value => value.compact

end Tabular.Json
