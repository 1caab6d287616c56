import Tabular.Text.Split

/-!
# Sets of characters

A property of Unicode as the sorted list of its ranges of code points, and the notation of such
lists in the tables: ranges separated by blanks, their ends in hexadecimal with a dash between them,
and a single code point without a dash.
-/

namespace Tabular.Unicode

/-- Ranges of code points, first and last one inclusive, in ascending order. -/
abbrev Ranges := List (Nat × Nat)

def Ranges.contains : Ranges → Nat → Bool
  | [], _ => false
  | (first, last) :: more, n =>
    if n < first then false else if n ≤ last then true else Ranges.contains more n

def hexDigit (c : Char) : Nat :=
  if c.isDigit then c.toNat - '0'.toNat else c.toNat - 'a'.toNat + 10

def hexNumber (cs : List Char) : Nat :=
  cs.foldl (fun n c => 16 * n + hexDigit c) 0

def hexNumbers (separator : Char) (s : String) : List Nat :=
  (Text.piecesBy (· == separator) s.toList).map hexNumber

def Ranges.ofText (s : String) : Ranges :=
  (Text.words s).filterMap fun word =>
    match hexNumbers '-' word with
    | [n] => some (n, n)
    | [first, last] => some (first, last)
    | _ => none

end Tabular.Unicode
