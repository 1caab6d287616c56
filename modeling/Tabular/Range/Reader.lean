import Tabular.Range.Basic
import Tabular.Text.Split
import Tabular.Decimal.Integer

/-!
# Reading ranges

A range is written as one index, as `a:b` with optional bounds, as a list with commas, or as `a-b`.
Text that is none of these names nothing.
-/

namespace Tabular.Range

/-- What is known while the text of a dash interval is read: the bounds so far, the digits of the
next bound in reverse, and whether that bound is negative. -/
structure DashState where
  bounds : List Int
  digits : List Char
  negative : Bool

namespace DashState

def bound? (state : DashState) : Option Int :=
  (Decimal.readWord? state.digits.reverse).map fun w => if state.negative then -w.toInt else w.toInt

/-- Reads the characters after the first one. A dash ends a bound; one more dash behind it makes the
next bound negative, and a digit behind it makes it positive. Characters that are neither dashes nor
digits are passed over. -/
def read : DashState → List Char → List Int
  | state, [] =>
    if state.digits = [] then state.bounds
    else
      match state.bound? with
      | some bound => state.bounds ++ [bound]
      | none => []
  | state, '-' :: cs =>
    match state.bound?, cs with
    | none, _ => []
    | some _, [] => []
    | some bound, '-' :: more => read ⟨state.bounds ++ [bound], [], true⟩ more
    | some bound, c :: more =>
      if c.isDigit then read ⟨state.bounds ++ [bound], [c], false⟩ more
      else read ⟨state.bounds ++ [bound], [], state.negative⟩ more
  | state, c :: cs =>
    if c.isDigit then read { state with digits := c :: state.digits } cs else read state cs

end DashState

/-- The bounds of a dash interval. A dash in front makes the first bound negative. -/
def dashBounds (cs : List Char) : List Int :=
  match cs with
  | '-' :: more => DashState.read ⟨[], [], true⟩ more
  | cs => DashState.read ⟨[], [], false⟩ cs

/-- One bound is an index, two are an interval, and anything else names nothing. -/
def resolveBounds : List Int → List Int
  | [index] => [index]
  | [lower, upper] => integersFrom lower upper
  | _ => []

def trimmedIndex? (cs : List Char) : Option Int :=
  (Decimal.readWord? (Text.trimChars cs)).map Int64.toInt

def itemIndices (cs : List Char) : List Int :=
  let cs := Text.trimChars cs
  match Decimal.readWord? cs with
  | some index => [index.toInt]
  | none => resolveBounds (dashBounds cs)

/-- Reads the text of a range. In an interval a bound that is no integer is left open, and what
stands behind a second colon is dropped. -/
def readChars (cs : List Char) : Range :=
  let cs := Text.trimChars cs
  match Decimal.readWord? cs with
  | some index => ofIndices [index.toInt]
  | none =>
    if cs.contains ':' then
      match Text.piecesBy (· == ':') cs with
      | start :: stop :: _ => ⟨.interval (trimmedIndex? start) (trimmedIndex? stop), false⟩
      | _ => all
    else if cs.contains ',' then
      ofIndices ((Text.piecesBy (· == ',') cs).flatMap itemIndices)
    else ofIndices (itemIndices cs)

def read (s : String) : Range :=
  readChars s.toList

end Tabular.Range
