import Tabular.Yaml.ScalarText

/-!
# Cutting YAML text into tokens

Outside brackets the indentation says where blocks begin and end. A node that stands where a key may
stand becomes one when a colon follows it on the same line and within 1024 characters; the marks of
the key and of its block are then put in front of it. Until that is decided the tokens from the node
on are withheld, so a fault found in the meantime shows in their place.
-/

namespace Tabular.Yaml

/-- A node that may turn out to be a key. -/
structure Candidate where
  /-- The number of tokens in front of the node. -/
  place : Nat
  mark : Mark
  /-- The indentation says that the node must be a key. -/
  required : Bool
  deriving Repr

structure Lexer where
  cursor : Cursor
  /-- The tokens so far in reverse order, and their number. -/
  tokens : List Token
  count : Nat
  /-- The columns of the open blocks, innermost first. -/
  indents : List Int
  /-- For every open bracket, innermost first, and for the text around them, the node that may be a
  key. -/
  candidates : List (Option Candidate)
  keyAllowed : Bool

namespace Lexer

def ofChars (text : List Char) : Lexer :=
  { cursor := ⟨Mark.start, text⟩
    tokens := []
    count := 0
    indents := []
    candidates := [none]
    keyAllowed := true }

/-- The column of the innermost block, `-1` outside of blocks. -/
def indent (lexer : Lexer) : Int := lexer.indents.head?.getD (-1)

def inFlow (lexer : Lexer) : Bool := 1 < lexer.candidates.length

def mark (lexer : Lexer) : Mark := lexer.cursor.mark

def push (lexer : Lexer) (token : Token) : Lexer :=
  { lexer with tokens := token :: lexer.tokens, count := lexer.count + 1 }

/-- Puts a token in front of which `place` tokens stand. -/
def insertAt (lexer : Lexer) (place : Nat) (token : Token) : Lexer :=
  let behind := lexer.count - place
  { lexer with
    tokens := lexer.tokens.take behind ++ token :: lexer.tokens.drop behind
    count := lexer.count + 1 }

def pushMark (lexer : Lexer) (kind : TokenKind) (width : Nat) : Lexer :=
  let stop := lexer.cursor.skipMany width
  { lexer.push ⟨kind, lexer.mark, stop.mark⟩ with cursor := stop }

def allowKey (lexer : Lexer) (allowed : Bool) : Lexer :=
  { lexer with keyAllowed := allowed }

def refuse {α : Type} (lexer : Lexer) (problem : Problem) : Except Fault α :=
  .error ⟨problem, lexer.mark, 0, none⟩

/-- Opens a block at a column that lies behind the innermost one; its token is put in front of which
`place` tokens stand. -/
def openBlock (lexer : Lexer) (column : Nat) (place : Nat) (kind : TokenKind) (mark : Mark) :
    Lexer :=
  if !lexer.inFlow ∧ lexer.indent < column then
    { lexer.insertAt place ⟨kind, mark, mark⟩ with indents := (column : Int) :: lexer.indents }
  else lexer

def closeBlocks (lexer : Lexer) (column : Int) : Lexer :=
  if lexer.inFlow then lexer
  else
    let closed := lexer.indents.takeWhile (column < ·)
    let token : Token := ⟨.blockEnd, lexer.mark, lexer.mark⟩
    { lexer with
      indents := lexer.indents.drop closed.length
      tokens := List.replicate closed.length token ++ lexer.tokens
      count := lexer.count + closed.length }

def dropCandidate (lexer : Lexer) : Except Fault Lexer :=
  match lexer.candidates with
  | some candidate :: more =>
    if candidate.required then lexer.cursor.fail .noColon .scanningKey candidate.mark
    else .ok { lexer with candidates := none :: more }
  | _ => .ok lexer

def saveCandidate (lexer : Lexer) : Except Fault Lexer :=
  if lexer.keyAllowed then do
    let required := !lexer.inFlow && lexer.indent == lexer.mark.column
    let lexer ← lexer.dropCandidate
    let candidate : Candidate := ⟨lexer.count, lexer.mark, required⟩
    return { lexer with candidates := some candidate :: lexer.candidates.drop 1 }
  else .ok lexer

def isStale (lexer : Lexer) (candidate : Candidate) : Bool :=
  decide (candidate.mark.line < lexer.mark.line) ||
    decide (candidate.mark.index + 1024 < lexer.mark.index)

/-- Gives up the nodes that are too far behind, the outermost first. -/
def dropStale (lexer : Lexer) : Except Fault Lexer :=
  let stale (candidate : Option Candidate) : Bool := candidate.any lexer.isStale
  match (lexer.candidates.reverse.filterMap id).find? fun c => lexer.isStale c && c.required with
  | some candidate => lexer.cursor.fail .noColon .scanningKey candidate.mark
  | none =>
    .ok { lexer with
      candidates := lexer.candidates.map fun candidate =>
        if stale candidate then none else candidate }

/-- Passes over blanks, comments and line breaks. Tabs are passed over only where no key may stand.
The fuel bounds the number of lines. -/
def skipGap : Nat → Lexer → Lexer
  | 0, lexer => lexer
  | fuel + 1, lexer =>
    let cursor :=
      if lexer.mark.index == 0 && lexer.cursor.startsWith '\ufeff' then lexer.cursor.skip
      else lexer.cursor
    let tabs := lexer.inFlow || !lexer.keyAllowed
    let cursor := (cursor.skipWhile fun c => c == ' ' || (tabs && c == '\t')).skipComment
    if cursor.isNext isBreakChar then
      skipGap fuel { lexer with
        cursor := cursor.skipBreak
        keyAllowed := lexer.keyAllowed || !lexer.inFlow }
    else { lexer with cursor := cursor }

def closeAll (lexer : Lexer) : Except Fault Lexer := do
  let lexer ← (lexer.closeBlocks (-1)).dropCandidate
  return lexer.allowKey false

def atLineStart (lexer : Lexer) : Lexer :=
  if lexer.mark.column = 0 then lexer
  else
    let mark := { lexer.mark with line := lexer.mark.line + 1, column := 0 }
    { lexer with cursor := { lexer.cursor with mark := mark } }

def lexStreamEnd (lexer : Lexer) : Except Fault Lexer := do
  let lexer ← lexer.atLineStart.closeAll
  return lexer.pushMark .streamEnd 0

def add (lexer : Lexer) (reader : Reader Token) : Except Fault Lexer := do
  let (token, stop) ← reader lexer.cursor
  return { lexer.push token with cursor := stop }

def addNode (lexer : Lexer) (reader : Reader Token) : Except Fault Lexer := do
  let lexer ← lexer.saveCandidate
  (lexer.allowKey false).add reader

def lexPlain (lexer : Lexer) : Except Fault Lexer := do
  let lexer ← lexer.saveCandidate
  let ((token, broken), stop) ← readPlain lexer.inFlow (lexer.indent + 1) lexer.cursor
  return { lexer.push token with cursor := stop, keyAllowed := broken }

def lexBlock (lexer : Lexer) (literal : Bool) : Except Fault Lexer := do
  let lexer ← lexer.dropCandidate
  (lexer.allowKey true).add (readBlock literal lexer.indent)

def openFlow (lexer : Lexer) (kind : TokenKind) : Except Fault Lexer := do
  let lexer ← lexer.saveCandidate
  let lexer := { lexer with candidates := none :: lexer.candidates }
  return (lexer.allowKey true).pushMark kind 1

def closeFlow (lexer : Lexer) (kind : TokenKind) : Except Fault Lexer := do
  let lexer ← lexer.dropCandidate
  let lexer :=
    if lexer.inFlow then { lexer with candidates := lexer.candidates.drop 1 } else lexer
  return (lexer.allowKey false).pushMark kind 1

def lexFlowEntry (lexer : Lexer) : Except Fault Lexer := do
  let lexer ← lexer.dropCandidate
  return (lexer.allowKey true).pushMark .flowEntry 1

/-- The mark of an entry, a key or a value opens a block where one may begin. -/
def openAtCursor (lexer : Lexer) (kind : TokenKind) (problem : Problem) : Except Fault Lexer :=
  if lexer.inFlow then .ok lexer
  else if !lexer.keyAllowed then lexer.refuse problem
  else .ok (lexer.openBlock lexer.mark.column lexer.count kind lexer.mark)

def lexBlockEntry (lexer : Lexer) : Except Fault Lexer := do
  let lexer ← lexer.openAtCursor .blockSequenceStart .entryNotAllowed
  let lexer ← lexer.dropCandidate
  return (lexer.allowKey true).pushMark .blockEntry 1

def lexKey (lexer : Lexer) : Except Fault Lexer := do
  let lexer ← lexer.openAtCursor .blockMappingStart .keyNotAllowed
  let lexer ← lexer.dropCandidate
  return (lexer.allowKey !lexer.inFlow).pushMark .key 1

def lexValue (lexer : Lexer) : Except Fault Lexer := do
  match lexer.candidates with
  | some candidate :: more =>
    let lexer := lexer.insertAt candidate.place ⟨.key, candidate.mark, candidate.mark⟩
    let lexer := { lexer with candidates := none :: more }.openBlock candidate.mark.column
      candidate.place .blockMappingStart candidate.mark
    return (lexer.allowKey false).pushMark .value 1
  | _ =>
    let lexer ← lexer.openAtCursor .blockMappingStart .valueNotAllowed
    return (lexer.allowKey !lexer.inFlow).pushMark .value 1

def indicators : List Char :=
  ['-', '?', ':', ',', '[', ']', '\x7b', '\x7d', '#', '&', '*', '!', '|', '>', '\'', '"', '%', '@',
    '\x60']

def startsPlain (inFlow : Bool) (c : Char) (after : Option Char) : Bool :=
  let gap := after.all fun d => isBlankChar d || isBreakChar d
  !(isBlankChar c || isBreakChar c || indicators.contains c) ||
    (c == '-' && !after.any isBlankChar) || (!inFlow && (c == '?' || c == ':') && !gap)

def lexToken (lexer : Lexer) : Except Fault Lexer :=
  let cursor := lexer.cursor
  match cursor.rest with
  | [] => lexer.lexStreamEnd
  | c :: rest =>
    let gap := cursor.gapAfter 1
    if lexer.mark.column = 0 ∧ c = '%' then do (← lexer.closeAll).add readDirective
    else if cursor.atDocumentMark then do
      let lexer ← lexer.closeAll
      return lexer.pushMark (if c = '-' then .documentStart else .documentEnd) 3
    else if c = '[' then lexer.openFlow .flowSequenceStart
    else if c = '\x7b' then lexer.openFlow .flowMappingStart
    else if c = ']' then lexer.closeFlow .flowSequenceEnd
    else if c = '\x7d' then lexer.closeFlow .flowMappingEnd
    else if c = ',' then lexer.lexFlowEntry
    else if c = '-' ∧ gap then lexer.lexBlockEntry
    else if c = '?' ∧ (lexer.inFlow ∨ gap) then lexer.lexKey
    else if c = ':' ∧ (lexer.inFlow ∨ gap) then lexer.lexValue
    else if c = '*' then lexer.addNode (readAnchor .scanningAlias .alias)
    else if c = '&' then lexer.addNode (readAnchor .scanningAnchor .anchor)
    else if c = '!' then lexer.addNode (readTag lexer.inFlow)
    else if c = '|' ∧ !lexer.inFlow then lexer.lexBlock true
    else if c = '>' ∧ !lexer.inFlow then lexer.lexBlock false
    else if c = '\'' ∨ c = '"' then lexer.addNode (readQuoted c)
    else if startsPlain lexer.inFlow c rest.head? then lexer.lexPlain
    else cursor.fail .noToken .scanningToken cursor.mark

def step (lexer : Lexer) : Except Fault Lexer := do
  let lexer ← (lexer.skipGap (lexer.cursor.rest.length + 1)).dropStale
  let lexer ← (lexer.closeBlocks lexer.mark.column).lexToken
  lexer.dropStale

/-- The number of tokens that are not withheld. -/
def settled (lexer : Lexer) : Nat :=
  (lexer.candidates.filterMap id).foldl (fun n candidate => min n candidate.place) lexer.count

/-- All the tokens, or those in front of the first fault. Every step but the last one passes over a
character, so the fuel need only exceed the length of the text. -/
def run : Nat → Lexer → List Token × Option Fault
  | 0, lexer => (lexer.tokens.reverse, none)
  | fuel + 1, lexer =>
    match lexer.step with
    | .ok next =>
      match next.tokens with
      | ⟨.streamEnd, _, _⟩ :: _ => (next.tokens.reverse, none)
      | _ => run fuel next
    | .error fault => (lexer.tokens.reverse.take lexer.settled, some fault)

end Lexer

def isAllowed (c : Char) : Bool :=
  let n := c.toNat
  n == 0x09 || n == 0x0a || n == 0x0d || (0x20 ≤ n && n ≤ 0x7e) || n == 0x85 ||
    (0xa0 ≤ n && n ≤ 0xd7ff) || (0xe000 ≤ n && n ≤ 0xfffd) || 0x10000 ≤ n

def refusedAt? (offset : Nat) : List Char → Option Nat
  | [] => none
  | c :: cs => if isAllowed c then refusedAt? (offset + c.utf8Size) cs else some offset

def tokens (text : List Char) : List Token × Option Fault :=
  match refusedAt? 0 text with
  | some offset => ([], some ⟨.controlCharacter, Mark.start, offset, none⟩)
  | none => (Lexer.ofChars text).run (text.length + 2)

end Tabular.Yaml
