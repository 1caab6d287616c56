import Tabular.Yaml.Error

/-!
# Walking through YAML text

A cursor is a place in a text and what lies behind it. Lines end at a line feed, a carriage return,
both together, the next-line character, or the separators of lines and paragraphs.
-/

namespace Tabular.Yaml

structure Cursor where
  mark : Mark
  rest : List Char

abbrev Reader (α : Type) := Cursor → Except Fault (α × Cursor)

def isBlankChar (c : Char) : Bool := c == ' ' || c == '\t'

def isBreakChar (c : Char) : Bool :=
  c == '\r' || c == '\n' || c == '\u0085' || c == '\u2028' || c == '\u2029'

def isNameChar (c : Char) : Bool := c.isAlphanum || c == '_' || c == '-'

namespace Cursor

def next? (cursor : Cursor) : Option Char := cursor.rest.head?

def isNext (cursor : Cursor) (p : Char → Bool) : Bool := cursor.next?.any p

def isNextOrEnd (cursor : Cursor) (p : Char → Bool) : Bool := cursor.next?.all p

def startsWith (cursor : Cursor) (c : Char) : Bool := cursor.isNext (· == c)

def gapAfter (cursor : Cursor) (n : Nat) : Bool :=
  (cursor.rest.drop n).head?.all fun c => isBlankChar c || isBreakChar c

def skip (cursor : Cursor) : Cursor :=
  { mark := { cursor.mark with
      index := cursor.mark.index + 1
      column := cursor.mark.column + 1 }
    rest := cursor.rest.drop 1 }

def skipMany : Nat → Cursor → Cursor
  | 0, cursor => cursor
  | n + 1, cursor => skipMany n cursor.skip

/-- Passes over the longest run of characters that satisfy `p`, none of them a line break. -/
def skipWhile (p : Char → Bool) (cursor : Cursor) : Cursor :=
  cursor.skipMany (cursor.rest.takeWhile p).length

def skipBlanks (cursor : Cursor) : Cursor := cursor.skipWhile isBlankChar

def skipComment (cursor : Cursor) : Cursor :=
  if cursor.startsWith '#' then cursor.skipWhile (fun c => !isBreakChar c) else cursor

/-- A line break, as it stands in the value of a scalar: a line feed for all but the separators of
lines and paragraphs, and nothing where there is no line break. -/
def readBreak (cursor : Cursor) : List Char × Cursor :=
  let after (n : Nat) (rest : List Char) : Cursor :=
    ⟨⟨cursor.mark.index + n, cursor.mark.line + 1, 0⟩, rest⟩
  match cursor.rest with
  | '\r' :: '\n' :: rest => (['\n'], after 2 rest)
  | c :: rest =>
    if c == '\u2028' || c == '\u2029' then ([c], after 1 rest)
    else if isBreakChar c then (['\n'], after 1 rest)
    else ([], cursor)
  | [] => ([], cursor)

def skipBreak (cursor : Cursor) : Cursor := cursor.readBreak.2

def atDocumentMark (cursor : Cursor) : Bool :=
  cursor.mark.column == 0 && cursor.gapAfter 3 &&
    (cursor.rest.take 3 == ['-', '-', '-'] || cursor.rest.take 3 == ['.', '.', '.'])

/-- Fails at the cursor during an activity that began at `start`. -/
def fail {α : Type} (cursor : Cursor) (problem : Problem) (activity : Activity) (start : Mark) :
    Except Fault α :=
  .error ⟨problem, cursor.mark, 0, some (activity, start)⟩

end Cursor

end Tabular.Yaml
