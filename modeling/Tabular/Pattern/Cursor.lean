import Tabular.Pattern.Tree
import Tabular.Unicode.Word

/-!
# Walking through a pattern

A cursor is a place in a pattern and the text behind it. In extended patterns blanks and comments
are passed over.
-/

namespace Tabular.Pattern

structure Cursor where
  place : Place
  rest : List Char

abbrev Reader (α : Type) := Cursor → Except Fault (α × Cursor)

/-- The number of characters of the blanks and comments at the front; a comment runs from `#` to the
end of its line. -/
def blankLength : Bool → List Char → Nat
  | _, [] => 0
  | true, c :: cs => 1 + blankLength (c != '\n') cs
  | false, c :: cs =>
    if Text.isBlank c then 1 + blankLength false cs
    else if c = '#' then 1 + blankLength true cs
    else 0

namespace Cursor

def ofChars (cs : List Char) : Cursor := ⟨Place.first, cs⟩

def atEnd (cursor : Cursor) : Bool := cursor.rest.isEmpty

def bump (cursor : Cursor) : Cursor :=
  match cursor.rest with
  | [] => cursor
  | c :: rest => ⟨cursor.place.past c, rest⟩

def advance : Nat → Cursor → Cursor
  | 0, cursor => cursor
  | n + 1, cursor => advance n cursor.bump

/-- Passes over blanks and comments of an extended pattern. -/
def skip (extended : Bool) (cursor : Cursor) : Cursor :=
  if extended then cursor.advance (blankLength false cursor.rest) else cursor

def step (extended : Bool) (cursor : Cursor) : Cursor :=
  if cursor.bump.atEnd then cursor.bump else cursor.bump.skip extended

def since (cursor : Cursor) (start : Place) : Span := ⟨start, cursor.place⟩

def here (cursor : Cursor) : Span := ⟨cursor.place, cursor.place⟩

def nextSpan (cursor : Cursor) : Span := ⟨cursor.place, cursor.bump.place⟩

/-- The longest run of characters that satisfy `p`, with the blanks between and behind them passed
over. The fuel bounds the length of the run. -/
def takeWhile (extended : Bool) (p : Char → Bool) : Nat → Cursor → List Char × Cursor
  | 0, cursor => ([], cursor)
  | fuel + 1, cursor =>
    match cursor.rest with
    | [] => ([], cursor)
    | c :: _ =>
      if p c then
        let (more, stop) := takeWhile extended p fuel (cursor.step extended)
        (c :: more, stop)
      else ([], cursor)

def run (extended : Bool) (p : Char → Bool) (cursor : Cursor) : List Char × Cursor :=
  cursor.takeWhile extended p (cursor.rest.length + 1)

/-- The character behind the next one and behind blanks; only the first `#` among them is passed
over. -/
def peekBehind? (extended : Bool) (cursor : Cursor) : Option Char :=
  let rest := cursor.rest.drop 1
  if extended then
    let solid := rest.filter (fun c => !Text.isBlank c)
    let solid := match solid with
      | '#' :: more => more
      | _ => solid
    solid.head?.or rest.head?
  else rest.head?

end Cursor

def fail {α : Type} (flaw : Flaw) (span : Span) : Except Fault α :=
  .error ⟨flaw, span, none⟩

def isHexDigit (c : Char) : Bool :=
  c.isDigit || ('a' ≤ c && c ≤ 'f') || ('A' ≤ c && c ≤ 'F')

def charOfHex? (digits : List Char) : Option Char :=
  let n := Unicode.hexNumber (digits.map Char.toLower)
  if n < 0xd800 ∨ (0xe000 ≤ n ∧ n < 0x110000) then some (Char.ofNat n) else none

def readHexDigits (extended : Bool) : Nat → Bool → Reader (List Char)
  | 0, _, cursor => .ok ([], cursor.step extended)
  | count + 1, first, cursor => do
    let cursor := if first then cursor else cursor.step extended
    match cursor.rest with
    | [] => fail .escapeUnfinished cursor.here
    | c :: _ =>
      if isHexDigit c then
        let (more, stop) ← readHexDigits extended count false cursor
        return (c :: more, stop)
      else fail .hexDigit cursor.nextSpan

def readHexBrace (extended : Bool) : Reader Char := fun cursor =>
  let open_ := cursor.place
  let start := cursor.bump.place
  let (digits, stop) := (cursor.step extended).run extended isHexDigit
  match stop.rest with
  | [] => fail .escapeUnfinished (stop.since open_)
  | '\x7d' :: _ =>
    let close := stop.step extended
    if digits = [] then fail .hexEmpty (close.since open_)
    else
      match charOfHex? digits with
      | some c => .ok (c, close)
      | none => fail .hexInvalid ⟨start, stop.place⟩
  | _ :: _ => fail .hexDigit stop.nextSpan

/-- A hexadecimal escape of the backslash at `start`; the cursor is at its letter, which wants
`count` digits where there are no braces. -/
def readHex (extended : Bool) (start : Place) (count : Nat) : Reader Primitive := fun cursor => do
  let next := cursor.step extended
  match next.rest with
  | [] => fail .escapeUnfinished next.here
  | '\x7b' :: _ =>
    let (c, stop) ← readHexBrace extended next
    return (.literal ⟨stop.since start, c, false⟩, stop)
  | _ =>
    let (digits, stop) ← readHexDigits extended count true next
    match charOfHex? digits with
    | some c => return (.literal ⟨stop.since start, c, count == 2⟩, stop)
    | none => fail .hexInvalid (stop.since next.place)

def cutAt? (mark : List Char) : List Char → Option (List Char × List Char)
  | [] => none
  | c :: cs =>
    match Text.dropLead? mark (c :: cs) with
    | some rest => some ([], rest)
    | none => (cutAt? mark cs).map fun (front, rest) => (c :: front, rest)

def Property.ofChars (cs : List Char) : Property :=
  match (cutAt? ['!', '='] cs).or ((cutAt? [':'] cs).or (cutAt? ['='] cs)) with
  | some (name, value) => valued (String.ofList name) (String.ofList value)
  | none => named (String.ofList cs)

def readProperty (extended : Bool) (start : Place) (negated : Bool) : Reader Primitive :=
  fun cursor =>
    let next := cursor.step extended
    match next.rest with
    | [] => fail .escapeUnfinished next.here
    | c :: _ =>
      if c = '\x7b' then
        let (name, stop) := (next.step extended).run extended (· != '\x7d')
        if stop.atEnd then fail .escapeUnfinished stop.here
        else
          .ok (.property (stop.bump.since start) negated (Property.ofChars name), stop.bump)
      else if c = '\\' then fail .unicodeClass next.nextSpan
      else
        let stop := next.step extended
        .ok (.property (stop.since start) negated (.named (String.singleton c)), stop)

def isBoundaryChar (c : Char) : Bool :=
  c.isAlpha || c == '-'

/-- What may stand in braces behind a `\b` whose backslash is at `start`; the cursor is at the
opening brace. Braces that hold something else are left for a repetition. -/
def readBoundary (extended : Bool) (start : Place) : Reader (Option Look) := fun cursor =>
  let next := cursor.step extended
  match next.rest with
  | [] => fail .boundaryOrCountUnfinished (next.since start)
  | c :: _ =>
    if !isBoundaryChar c then .ok (none, cursor)
    else
      let (name, stop) := next.run extended isBoundaryChar
      match stop.rest with
      | '\x7d' :: _ =>
        match String.ofList name with
        | "start" => .ok (some .wordStart, stop.bump)
        | "end" => .ok (some .wordEnd, stop.bump)
        | "start-half" => .ok (some .wordStartHalf, stop.bump)
        | "end-half" => .ok (some .wordEndHalf, stop.bump)
        | _ => fail .boundaryUnknown (stop.since next.place)
      | _ => fail .boundaryUnclosed (stop.since cursor.place)

def specialChar? (c : Char) : Option Char :=
  match c with
  | 'a' => some '\x07'
  | 'f' => some '\x0c'
  | 't' => some '\t'
  | 'n' => some '\n'
  | 'r' => some '\r'
  | 'v' => some '\x0b'
  | _ => none

/-- ASCII characters that may always be escaped, and stand for themselves then. -/
def isEscapable (c : Char) : Bool :=
  c.toNat < 0x80 && !c.isAlphanum && c != '<' && c != '>'

def readEscape (extended : Bool) : Reader Primitive := fun cursor => do
  let start := cursor.place
  let next := cursor.bump
  match next.rest with
  | [] => fail .escapeUnfinished (next.since start)
  | c :: _ =>
    let stop := next.bump
    let span := stop.since start
    let simple (look : Look) : Except Fault (Primitive × Cursor) := .ok (.look span look, stop)
    match c with
    | 'x' => readHex extended start 2 next
    | 'u' => readHex extended start 4 next
    | 'U' => readHex extended start 8 next
    | 'p' => readProperty extended start false next
    | 'P' => readProperty extended start true next
    | 'd' => return (.perl span false .digit, stop)
    | 'D' => return (.perl span true .digit, stop)
    | 's' => return (.perl span false .space, stop)
    | 'S' => return (.perl span true .space, stop)
    | 'w' => return (.perl span false .word, stop)
    | 'W' => return (.perl span true .word, stop)
    | 'A' => simple .startText
    | 'z' => simple .endText
    | 'B' => simple .notBoundary
    | '<' => simple .wordStart
    | '>' => simple .wordEnd
    | 'b' =>
      match stop.rest with
      | '\x7b' :: _ =>
        let (look, close) ← readBoundary extended start stop
        return (.look (close.since start) (look.getD .boundary), close)
      | _ => simple .boundary
    | _ =>
      if c.isDigit then fail .backreference span
      else if isEscapable c then return (.literal ⟨span, c, false⟩, stop)
      else
        match specialChar? c with
        | some special => return (.literal ⟨span, special, false⟩, stop)
        | none => fail .escapeUnknown span

end Tabular.Pattern
