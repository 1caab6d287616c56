import Tabular.TextSet
import Tabular.Json.Printer
import Tabular.Decimal.Fixed
import Tabular.Decimal.Numeral

/-!
# Cells

What one field of a row holds, how it is read from text or from a document, and how it is written.
-/

namespace Tabular

inductive Cell where
  | int (n : Int64)
  | float (x : Float)
  | text (s : String)
  | set (texts : TextSet)
  /-- A list or an object as it stands in a document. -/
  | structured (value : Json)

abbrev Row := List Cell

namespace Cell

/-- Reads a word if the text is one, else a finite number if the text is one. -/
def infer (s : String) : Cell :=
  match Decimal.readWord? s.toList with
  | some n => int n
  | none =>
    match Decimal.readFinite? s.toList with
    | some x => float x
    | none => text s

/-- The cell of a value of a document: `null` is empty text, and truth values are words. -/
def ofJson : Json → Cell
  | .int n =>
    match Decimal.word? n with
    | some w => int w
    | none => float (Float.ofInt n)
  | .float x => float x
  | .string s => text s
  | .bool b => text (if b then "true" else "false")
  | .null => text ""
  | value => structured value

def toJson : Cell → Json
  | int n => .int n.toInt
  | float x => Json.ofFloat x
  | text s => .string s
  | set texts => .array (texts.toList.map Json.string)
  | structured value => value

def numeral? : Cell → Option Decimal.Numeral
  | int n => some (.number (Decimal.ofWord n))
  | float x => some (.number x)
  | text s => Decimal.readNumeral? s.toList
  | _ => none

def float? (cell : Cell) : Option Float :=
  cell.numeral?.map Decimal.Numeral.toFloat

/-- The cell as a word; what stands behind the point of a number is dropped. -/
def word? : Cell → Option Int64
  | int n => some n
  | float x => some (Decimal.toWord x)
  | text s => Decimal.readWord? s.toList
  | _ => none

def isNumber : Cell → Bool
  | int _ | float _ => true
  | _ => false

/-- The text of a cell: two places for a float, commas between the texts of a set, and compact JSON
for a list or an object. -/
def render : Cell → String
  | int n => Decimal.wordText n
  | float x => Decimal.twoPlaces x
  | text s => s
  | set texts => texts.joined ","
  | structured value => value.plainText

end Cell

end Tabular
