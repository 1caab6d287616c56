import Tabular.Yaml.Cursor
import Tabular.Yaml.Token
import Tabular.Json.Token

/-!
# Directives, anchors and tags

The tokens that carry names.
-/

namespace Tabular.Yaml

def readWhile (p : Char → Bool) (cursor : Cursor) : List Char × Cursor :=
  (cursor.rest.takeWhile p, cursor.skipWhile p)

def readLineEnd (activity : Activity) (start : Mark) (cursor : Cursor) : Except Fault Cursor :=
  let stop := cursor.skipBlanks.skipComment
  if stop.isNextOrEnd isBreakChar then .ok stop.skipBreak
  else stop.fail .lineEnd activity start

/-- Whether a tag stands in a directive, which decides on what messages say. -/
inductive TagPlace where
  | node
  | directive
  deriving DecidableEq, Repr

def TagPlace.parsing : TagPlace → Activity
  | node => .parsingTag
  | directive => .parsingTagDirective

/-- The handle of a tag, with its exclamation marks. Without the second mark it is only a beginning
of the tag, which in a directive is refused unless it is the mark alone. -/
def readTagHandle (place : TagPlace) (start : Mark) : Reader (List Char) := fun cursor =>
  if !cursor.startsWith '!' then
    cursor.fail .tagMark
      (if place = .directive then .scanningLowerTagDirective else .scanningTag) start
  else
    let (name, stop) := readWhile isNameChar cursor.skip
    if stop.startsWith '!' then .ok ('!' :: name ++ ['!'], stop.skip)
    else if place = .directive ∧ name ≠ [] then
      stop.fail .tagMark .parsingLowerTagDirective start
    else .ok ('!' :: name, stop)

def uriMarks : List Char :=
  [';', '/', '?', ':', '@', '&', '=', '+', '$', '.', '%', '!', '~', '*', '\'', '(', ')']

def isUriChar (verbatim : Bool) (c : Char) : Bool :=
  isNameChar c || uriMarks.contains c || (verbatim && (c == ',' || c == '[' || c == ']'))

def octetCount? (octet : Nat) : Option Nat :=
  if octet < 0x80 then some 1
  else if 0xc0 ≤ octet ∧ octet < 0xe0 then some 2
  else if 0xe0 ≤ octet ∧ octet < 0xf0 then some 3
  else if 0xf0 ≤ octet ∧ octet < 0xf8 then some 4
  else none

def readOctet (place : TagPlace) (start : Mark) : Reader Nat := fun cursor =>
  match cursor.rest with
  | '%' :: a :: b :: _ =>
    match Json.hexDigit? a, Json.hexDigit? b with
    | some a, some b => .ok (a * 16 + b, cursor.skipMany 3)
    | _, _ => cursor.fail .uriEscape place.parsing start
  | _ => cursor.fail .uriEscape place.parsing start

def readTrail (place : TagPlace) (start : Mark) : Nat → Nat → Reader Nat
  | 0, n, cursor => .ok (n, cursor)
  | count + 1, n, cursor => do
    let (octet, stop) ← readOctet place start cursor
    if octet / 64 = 2 then readTrail place start count (n * 64 + octet % 64) stop
    else cursor.fail .uriTrail place.parsing start

def readEscapedChar (place : TagPlace) (start : Mark) : Reader Char := fun cursor => do
  let (octet, stop) ← readOctet place start cursor
  match octetCount? octet with
  | none => cursor.fail .uriLead place.parsing start
  | some 1 => return (Char.ofNat octet, stop)
  | some count =>
    let (n, stop) ← readTrail place start (count - 1) (octet % Nat.pow 2 (7 - count)) stop
    return (Char.ofNat n, stop)

def readUriChars (place : TagPlace) (verbatim : Bool) (start : Mark) : Nat → Reader (List Char)
  | 0, cursor => .ok ([], cursor)
  | fuel + 1, cursor =>
    match cursor.rest with
    | [] => .ok ([], cursor)
    | c :: _ =>
      if !isUriChar verbatim c then .ok ([], cursor)
      else do
        let (c, stop) ←
          if c = '%' then readEscapedChar place start cursor else .ok (c, cursor.skip)
        let (more, stop) ← readUriChars place verbatim start fuel stop
        return (c :: more, stop)

/-- The characters of a tag behind the beginning `head`, which must not both be missing. -/
def readUri (place : TagPlace) (verbatim : Bool) (head : List Char) (start : Mark) :
    Reader (List Char) := fun cursor => do
  let (chars, stop) ← readUriChars place verbatim start (cursor.rest.length + 1) cursor
  if head = [] ∧ chars = [] then stop.fail .tagUri place.parsing start
  else return (head.drop 1 ++ chars, stop)

def isWholeHandle (handle : List Char) : Bool :=
  2 ≤ handle.length && handle.getLast? == some '!'

def readTagParts (start : Mark) : Reader (List Char × List Char) := fun cursor => do
  if cursor.skip.startsWith '<' then
    let (uri, stop) ← readUri .node true [] start (cursor.skipMany 2)
    if stop.startsWith '>' then return (([], uri), stop.skip)
    else stop.fail .tagClose .scanningTag start
  else
    let (handle, stop) ← readTagHandle .node start cursor
    if isWholeHandle handle then
      let (uri, stop) ← readUri .node false [] start stop
      return ((handle, uri), stop)
    else
      let (uri, stop) ← readUri .node false handle start stop
      if uri = [] then return (([], ['!']), stop) else return ((['!'], uri), stop)

def readTag (inFlow : Bool) : Reader Token := fun cursor => do
  let start := cursor.mark
  let ((handle, uri), stop) ← readTagParts start cursor
  if stop.gapAfter 0 || (inFlow && stop.startsWith ',') then
    return (⟨.tag (String.ofList handle) (String.ofList uri), start, stop.mark⟩, stop)
  else stop.fail .whitespaceOrLineEnd .scanningTag start

def anchorEnds : List Char := ['?', ':', ',', ']', '\x7d', '%', '@', '\x60']

def readAnchor (activity : Activity) (kind : String → TokenKind) : Reader Token := fun cursor =>
  let start := cursor.mark
  let (name, stop) := readWhile isNameChar cursor.skip
  if name ≠ [] ∧ (stop.gapAfter 0 ∨ stop.isNext anchorEnds.contains) then
    .ok (⟨kind (String.ofList name), start, stop.mark⟩, stop)
  else stop.fail .anchorName activity start

def readVersionNumber (start : Mark) : Reader Nat := fun cursor =>
  let (digits, stop) := readWhile Char.isDigit cursor
  if 9 < digits.length then (cursor.skipMany 9).fail .versionLong .scanningVersion start
  else
    match Decimal.readNat? digits with
    | some n => .ok (n, stop)
    | none => cursor.fail .versionMissing .scanningVersion start

def readVersion (start : Mark) : Reader TokenKind := fun cursor => do
  let (major, stop) ← readVersionNumber start cursor.skipBlanks
  if !stop.startsWith '.' then stop.fail .versionPoint .scanningVersion start
  else
    let (minor, stop) ← readVersionNumber start stop.skip
    return (.version major minor, stop)

def readTagDirective (start : Mark) : Reader TokenKind := fun cursor => do
  let (handle, stop) ← readTagHandle .directive start cursor.skipBlanks
  if !stop.isNext isBlankChar then stop.fail .whitespace .scanningTagDirective start
  else
    let (lead, stop) ← readUri .directive true [] start stop.skipBlanks
    if stop.gapAfter 0 then
      return (.tagDirective (String.ofList handle) (String.ofList lead), stop)
    else stop.fail .whitespaceOrLineEnd .scanningTagDirective start

def readDirective : Reader Token := fun cursor => do
  let start := cursor.mark
  let (name, stop) := readWhile isNameChar cursor.skip
  if name = [] then stop.fail .directiveNameMissing .scanningDirective start
  else if !stop.gapAfter 0 then stop.fail .directiveNameCharacter .scanningDirective start
  else
    let (kind, stop) ←
      match String.ofList name with
      | "YAML" => readVersion start stop
      | "TAG" => readTagDirective start stop
      | _ => stop.fail .directiveName .scanningDirective start
    let behind ← readLineEnd .scanningDirective start stop
    return (⟨kind, start, stop.mark⟩, behind)

end Tabular.Yaml
