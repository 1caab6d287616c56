import Tabular.Text.Split
import Tabular.Decimal.Integer

/-!
# Flaws in patterns

Why a text is not a pattern, and the picture that points at the place: the text with a line of
carets below the faulty stretch. A text of several lines gets line numbers and a frame.
-/

namespace Tabular.Pattern

/-- A place between two characters. Lines and columns are counted from one. -/
structure Place where
  offset : Nat
  line : Nat
  column : Nat
  deriving DecidableEq, Repr

def Place.first : Place := ⟨0, 1, 1⟩

def Place.past (place : Place) (c : Char) : Place :=
  if c = '\n' then ⟨place.offset + 1, place.line + 1, 1⟩
  else ⟨place.offset + 1, place.line, place.column + 1⟩

structure Span where
  start : Place
  stop : Place
  deriving DecidableEq, Repr

inductive Flaw where
  | classEscape
  | classRange
  | classRangeEnd
  | classUnclosed
  | decimalEmpty
  | decimalInvalid
  | hexEmpty
  | hexInvalid
  | hexDigit
  | escapeUnfinished
  | escapeUnknown
  | flagDangling
  | flagTwice
  | flagNegatedTwice
  | flagsUnfinished
  | flagUnknown
  | nameTwice
  | nameEmpty
  | nameInvalid
  | nameUnfinished
  | groupUnclosed
  | groupUnopened
  | tooDeep (limit : Nat)
  | countRange
  | countEmpty
  | countUnclosed
  | nothingToRepeat
  | boundaryUnclosed
  | boundaryUnknown
  | boundaryOrCountUnfinished
  | unicodeClass
  | backreference
  | lookAround
  | unicodeNotAllowed
  | invalidUtf8
  | propertyUnknown
  | propertyValueUnknown
  deriving DecidableEq, Repr

def Flaw.text : Flaw → String
  | classEscape => "invalid escape sequence found in character class"
  | classRange => "invalid character class range, the start must be <= the end"
  | classRangeEnd => "invalid range boundary, must be a literal"
  | classUnclosed => "unclosed character class"
  | decimalEmpty => "decimal literal empty"
  | decimalInvalid => "decimal literal invalid"
  | hexEmpty => "hexadecimal literal empty"
  | hexInvalid => "hexadecimal literal is not a Unicode scalar value"
  | hexDigit => "invalid hexadecimal digit"
  | escapeUnfinished => "incomplete escape sequence, reached end of pattern prematurely"
  | escapeUnknown => "unrecognized escape sequence"
  | flagDangling => "dangling flag negation operator"
  | flagTwice => "duplicate flag"
  | flagNegatedTwice => "flag negation operator repeated"
  | flagsUnfinished => "expected flag but got end of regex"
  | flagUnknown => "unrecognized flag"
  | nameTwice => "duplicate capture group name"
  | nameEmpty => "empty capture group name"
  | nameInvalid => "invalid capture group character"
  | nameUnfinished => "unclosed capture group name"
  | groupUnclosed => "unclosed group"
  | groupUnopened => "unopened group"
  | tooDeep limit =>
    "exceed the maximum number of nested parentheses/brackets (" ++ Decimal.natText limit ++ ")"
  | countRange => "invalid repetition count range, the start must be <= the end"
  | countEmpty => "repetition quantifier expects a valid decimal"
  | countUnclosed => "unclosed counted repetition"
  | nothingToRepeat => "repetition operator missing expression"
  | boundaryUnclosed =>
    "special word boundary assertion is either unclosed or contains an invalid character"
  | boundaryUnknown =>
    "unrecognized special word boundary assertion, " ++
      "valid choices are: start, end, start-half or end-half"
  | boundaryOrCountUnfinished =>
    "found either the beginning of a special word boundary or a bounded repetition on a " ++
      "\\b with an opening brace, but no closing brace"
  | unicodeClass => "invalid Unicode character class"
  | backreference => "backreferences are not supported"
  | lookAround => "look-around, including look-ahead and look-behind, is not supported"
  | unicodeNotAllowed => "Unicode not allowed here"
  | invalidUtf8 => "pattern can match invalid UTF-8"
  | propertyUnknown => "Unicode property not found"
  | propertyValueUnknown => "Unicode property value not found"

/-- A flaw, the stretch where it shows, and the earlier stretch that it repeats. -/
structure Fault where
  flaw : Flaw
  span : Span
  earlier : Option Span
  deriving DecidableEq, Repr

/-- The lines of a text, without a carriage return at their ends. An empty last line does not
count. -/
def lines (cs : List Char) : List (List Char) :=
  let pieces := Text.piecesBy (· == '\n') cs
  let ended := pieces.dropLast.map fun line =>
    if line.getLast? = some '\r' then line.dropLast else line
  match pieces.getLast? with
  | none | some [] => ended
  | some rest => ended ++ [rest]

namespace Fault

def spans (fault : Fault) : List Span :=
  match fault.earlier with
  | none => [fault.span]
  | some earlier =>
    if earlier.start.offset ≤ fault.span.start.offset then [earlier, fault.span]
    else [fault.span, earlier]

def carets (done : Nat) : List Span → List Char
  | [] => []
  | span :: more =>
    let gap := span.start.column - 1 - done
    let width := max 1 (span.stop.column - span.start.column)
    List.replicate gap ' ' ++ List.replicate width '^' ++ carets (done + gap + width) more

/-- The lines of the picture, numbered from `number` on. Numbers are padded to `width` characters;
without a width there are no numbers. -/
def picture (spans : List Span) (width number : Nat) : List (List Char) → List (List Char)
  | [] => []
  | line :: more =>
    let digits := Decimal.natChars number
    let label :=
      if width = 0 then "    ".toList
      else List.replicate (width - digits.length) ' ' ++ digits ++ ": ".toList
    let inLine := spans.filter (fun span => span.start.line == number)
    let notes :=
      if inLine = [] then [] else [List.replicate label.length ' ' ++ carets 0 inLine]
    (label ++ line) :: notes ++ picture spans width (number + 1) more

def rangeNote (span : Span) : List Char :=
  let text := Decimal.natText
  ("on line " ++ text span.start.line ++ " (column " ++ text span.start.column ++
    ") through line " ++ text span.stop.line ++ " (column " ++ text (span.stop.column - 1) ++
    ")").toList

/-- The picture of the fault in its pattern, and the flaw in words. -/
def report (fault : Fault) (pattern : List Char) : String :=
  let rows := lines pattern
  let count := if pattern.getLast? = some '\n' then rows.length + 1 else rows.length
  let width := if count ≤ 1 then 0 else (Decimal.natChars count).length
  let (short, long) := fault.spans.partition fun span => span.start.line == span.stop.line
  let drawn := picture short width 1 rows
  let framed :=
    if pattern.contains '\n' then
      let frame := List.replicate 79 '~'
      frame :: drawn ++ [frame] ++ long.map rangeNote
    else drawn
  String.ofList ((("regex parse error:".toList :: framed).flatMap (· ++ ['\n'])) ++
    ("error: " ++ fault.flaw.text).toList)

end Fault

inductive ReadError where
  | malformed (fault : Fault)
  | tooLarge

/-- The most memory that a pattern may take, in bytes. -/
def sizeLimit : Nat := 10485760

def ReadError.message (pattern : String) : ReadError → String
  | malformed fault => fault.report pattern.toList
  | tooLarge => "Compiled regex exceeds size limit of " ++ Decimal.natText sizeLimit ++ " bytes."

end Tabular.Pattern
