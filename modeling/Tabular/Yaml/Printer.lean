import Tabular.Yaml.Cursor
import Tabular.Yaml.Resolve
import Tabular.Decimal.Shortest

/-!
# YAML text

The block form of a value: a line for every element and every member, two columns for each level,
and the elements of a list in the column of the member that holds them. A text is written plainly
where that reads back as the same text, and otherwise between quotes or as a block of lines.
-/

namespace Tabular.Yaml

/-- Numbers between a hundred-thousandth and ten quadrillions are written without an exponent. A
float keeps a zero behind the point. -/
def floatStyle : Decimal.Style where
  lowest := -5
  highest := 15
  wholeTail := ".0"
  exponentSign := ""
  nan := ".nan"
  infinity := ".inf"

def isPrintableChar (c : Char) : Bool :=
  let n := c.toNat
  n == 0x0a || (0x20 ≤ n && n ≤ 0x7e) || (0xa0 ≤ n && n ≤ 0xd7ff) ||
    (0xe000 ≤ n && n ≤ 0xfffd && n != 0xfeff) || 0x10000 ≤ n

def isGap (next : Option Char) : Bool :=
  next.all fun c => isBlankChar c || isBreakChar c || c == '\x00'

def leadMarks : List Char :=
  ['#', ',', '[', ']', '\x7b', '\x7d', '&', '*', '!', '|', '>', '\'', '"', '%', '@', '\x60']

def hasLeadMark (cs : List Char) : Bool :=
  cs.take 3 == ['-', '-', '-'] || cs.take 3 == ['.', '.', '.'] ||
    match cs with
    | [] => false
    | c :: more => leadMarks.contains c || ((c == '?' || c == '-') && isGap more.head?)

/-- A colon before a gap, or a number sign behind one. -/
def hasInnerMark : List Char → Bool
  | [] => false
  | c :: cs =>
    (c == ':' && isGap cs.head?) || (isGap (some c) && cs.head? == some '#') || hasInnerMark cs

def hasNeighbours (p q : Char → Bool) : List Char → Bool
  | c :: d :: cs => (p c && q d) || hasNeighbours p q (d :: cs)
  | _ => false

def isSpaceChar (c : Char) : Bool := c == ' '

def hasBreak (cs : List Char) : Bool := cs.any isBreakChar

def endsInSpace (cs : List Char) : Bool := cs.getLast?.any isSpaceChar

def allowsPlain (cs : List Char) : Bool :=
  cs.all isPrintableChar && !hasBreak cs && !cs.head?.any isSpaceChar && !endsInSpace cs &&
    !hasLeadMark cs && !hasInnerMark cs

def allowsSingleQuotes (cs : List Char) : Bool :=
  cs.all isPrintableChar && !hasNeighbours isSpaceChar isBreakChar cs &&
    !hasNeighbours isBreakChar isSpaceChar cs

def allowsBlock (cs : List Char) : Bool :=
  cs.all isPrintableChar && !hasNeighbours isSpaceChar isBreakChar cs && !endsInSpace cs

inductive ScalarStyle where
  | plain
  | singleQuoted
  | doubleQuoted
  | block
  deriving DecidableEq, Repr

/-- A text with line feeds is a block if it can be. A text that read plainly would be something
else, and digits behind a zero, are quoted. -/
def ScalarStyle.ofText (s : String) : ScalarStyle :=
  let cs := s.toList
  if cs.contains '\n' then
    if allowsBlock cs then block else doubleQuoted
  else if resolve s = .text && !isPaddedNumber cs && allowsPlain cs then plain
  else if allowsSingleQuotes cs then singleQuoted
  else doubleQuoted

def hexChars (width n : Nat) : List Char :=
  let digits := (Nat.toDigits 16 n).map Char.toUpper
  List.replicate (width - digits.length) '0' ++ digits

def escapedChar (c : Char) : List Char :=
  match c with
  | '\x00' => ['\\', '0']
  | '\x07' => ['\\', 'a']
  | '\x08' => ['\\', 'b']
  | '\t' => ['\\', 't']
  | '\n' => ['\\', 'n']
  | '\x0b' => ['\\', 'v']
  | '\x0c' => ['\\', 'f']
  | '\r' => ['\\', 'r']
  | '\x1b' => ['\\', 'e']
  | '"' => ['\\', '"']
  | '\\' => ['\\', '\\']
  | '\u0085' => ['\\', 'N']
  | '\u2028' => ['\\', 'L']
  | '\u2029' => ['\\', 'P']
  | c =>
    let n := c.toNat
    if isPrintableChar c then [c]
    else if n ≤ 0xff then '\\' :: 'x' :: hexChars 2 n
    else if n ≤ 0xffff then '\\' :: 'u' :: hexChars 4 n
    else '\\' :: 'U' :: hexChars 8 n

def margin (indent : Nat) : List Char := List.replicate indent ' '

/-- The lines of a text, each with a margin unless it is empty. `fresh` tells that a line begins. -/
def indented (indent : Nat) : Bool → List Char → List Char
  | _, [] => []
  | fresh, c :: cs =>
    if isBreakChar c then c :: indented indent true cs
    else if fresh then margin indent ++ c :: indented indent false cs
    else c :: indented indent false cs

def singleQuotedChars (indent : Nat) (cs : List Char) : List Char :=
  let doubled := cs.flatMap fun c => if c == '\'' then ['\'', '\''] else [c]
  let closing := if cs.getLast?.any isBreakChar then margin indent else []
  '\'' :: indented indent false doubled ++ closing ++ ['\'']

/-- What stands behind the bar of a block: the width of the margin, where the text itself begins
with a space or a line break, and how the text ends. -/
def blockHints (cs : List Char) : List Char :=
  let width := if cs.head?.any (fun c => isSpaceChar c || isBreakChar c) then ['2'] else []
  let ending :=
    match cs.reverse with
    | [] => ['-']
    | last :: before =>
      if !isBreakChar last then ['-'] else if before.head?.all isBreakChar then ['+'] else []
  width ++ ending

def textChars (indent : Nat) (s : String) : List Char :=
  let cs := s.toList
  match ScalarStyle.ofText s with
  | .plain => cs
  | .singleQuoted => singleQuotedChars indent cs
  | .doubleQuoted => '"' :: cs.flatMap escapedChar ++ ['"']
  | .block => '|' :: blockHints cs ++ '\n' :: indented indent true cs

def endLine (cs : List Char) : List Char :=
  if cs.getLast?.any isBreakChar then cs else cs ++ ['\n']

/-- What a node stands behind: nothing, the mark of an element, or the colon of a member. -/
inductive Place where
  | root
  | element
  | member
  deriving DecidableEq, Repr

namespace Place

def gap : Place → List Char
  | root => []
  | _ => [' ']

def opening (indent : Nat) : Place → List Char
  | root => []
  | element => [' ']
  | member => '\n' :: margin indent

def listIndent (indent : Nat) : Place → Nat
  | root => 0
  | element => indent + 2
  | member => indent

def objectIndent (indent : Nat) : Place → Nat
  | root => 0
  | _ => indent + 2

end Place

/-- The bytes up to which a name may stand in front of its colon on one line. -/
def keyLimit : Nat := 128

def isShortKey (name : String) : Bool :=
  !hasBreak name.toList && name.utf8ByteSize ≤ keyLimit

mutual

/-- A node in its place, up to the end of its last line; `indent` is that of the collection around
it. -/
def nodeChars (place : Place) (indent : Nat) : Json → List Char
  | .null => place.gap ++ "null\n".toList
  | .bool b => place.gap ++ (if b then "true\n" else "false\n").toList
  | .int n => place.gap ++ Decimal.intChars n ++ ['\n']
  | .float x => place.gap ++ (floatStyle.write x).toList ++ ['\n']
  | .string s => place.gap ++ endLine (textChars (indent + 2) s)
  | .array [] => place.gap ++ ['[', ']', '\n']
  | .array (item :: items) =>
    let inner := place.listIndent indent
    place.opening inner ++ '-' :: nodeChars .element inner item ++ elementChars inner items
  | .object [] => place.gap ++ ['\x7b', '\x7d', '\n']
  | .object ((name, value) :: members) =>
    let inner := place.objectIndent indent
    let first :=
      if isShortKey name then textChars (inner + 2) name ++ ':' :: nodeChars .member inner value
      else
        '?' :: ' ' :: endLine (textChars (inner + 2) name) ++
          margin inner ++ ':' :: nodeChars .element inner value
    place.opening inner ++ first ++ memberChars inner members

def elementChars (indent : Nat) : List Json → List Char
  | [] => []
  | item :: items =>
    margin indent ++ '-' :: nodeChars .element indent item ++ elementChars indent items

def memberChars (indent : Nat) : List (String × Json) → List Char
  | [] => []
  | (name, value) :: members =>
    let entry :=
      if isShortKey name then textChars (indent + 2) name ++ ':' :: nodeChars .member indent value
      else
        '?' :: ' ' :: endLine (textChars (indent + 2) name) ++
          margin indent ++ ':' :: nodeChars .element indent value
    margin indent ++ entry ++ memberChars indent members

end

def write (value : Json) : String :=
  String.ofList (nodeChars .root 0 value)

end Tabular.Yaml
