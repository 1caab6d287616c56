import Tabular.Yaml.Property

/-!
# The texts of scalars

Quoted, plain and block scalars. Where a quoted or plain scalar is broken into lines, the line break
with the blanks around it is folded into one blank, and further line breaks stay.
-/

namespace Tabular.Yaml

/-- Blanks before the first line break; whether there is a line break; the first one, and the
others. -/
structure Gap where
  blanks : List Char
  broken : Bool
  first : List Char
  others : List Char

def Gap.none : Gap := ⟨[], false, [], []⟩

/-- The gap behind an escaped line break, which leaves no blank of its own. -/
def Gap.escaped : Gap := ⟨[], true, [], []⟩

def Gap.text (gap : Gap) : List Char :=
  if !gap.broken then gap.blanks
  else if gap.first = ['\n'] then (if gap.others = [] then [' '] else gap.others)
  else gap.first ++ gap.others

/-- Reads blanks and line breaks. A tab that `refused` finds in front of the text of a line is an
error there. The fuel bounds the number of characters. -/
def readGap (refused : Cursor → Bool) (start : Mark) : Nat → Gap → Reader Gap
  | 0, gap, cursor => .ok (gap, cursor)
  | fuel + 1, gap, cursor =>
    match cursor.rest with
    | [] => .ok (gap, cursor)
    | c :: _ =>
      if isBlankChar c then
        if gap.broken then
          if c = '\t' ∧ refused cursor then cursor.fail .tabViolation .scanningPlain start
          else readGap refused start fuel gap cursor.skip
        else readGap refused start fuel { gap with blanks := gap.blanks ++ [c] } cursor.skip
      else if isBreakChar c then
        let (line, stop) := cursor.readBreak
        if gap.broken then
          readGap refused start fuel { gap with others := gap.others ++ line } stop
        else readGap refused start fuel ⟨[], true, line, gap.others⟩ stop
      else .ok (gap, cursor)

def simpleEscape? (c : Char) : Option Char :=
  match c with
  | '0' => some '\x00'
  | 'a' => some '\x07'
  | 'b' => some '\x08'
  | 't' | '\t' => some '\t'
  | 'n' => some '\n'
  | 'v' => some '\x0b'
  | 'f' => some '\x0c'
  | 'r' => some '\r'
  | 'e' => some '\x1b'
  | ' ' | '"' | '/' | '\\' => some c
  | 'N' => some '\u0085'
  | '_' => some '\u00a0'
  | 'L' => some '\u2028'
  | 'P' => some '\u2029'
  | _ => none

def escapeLength? (c : Char) : Option Nat :=
  match c with
  | 'x' => some 2
  | 'u' => some 4
  | 'U' => some 8
  | _ => none

def hexValue? : Nat → List Char → Option Nat
  | n, [] => some n
  | n, c :: cs => (Json.hexDigit? c).bind fun digit => hexValue? (n * 16 + digit) cs

def readCodePoint (start : Mark) (count : Nat) : Reader Char := fun cursor =>
  let digits := cursor.rest.take count
  match hexValue? 0 digits with
  | some n =>
    if digits.length < count then cursor.fail .hexNumber .parsingQuoted start
    else if (0xd800 ≤ n ∧ n ≤ 0xdfff) ∨ 0x10ffff < n then
      cursor.fail .codePoint .parsingQuoted start
    else .ok (Char.ofNat n, cursor.skipMany count)
  | none => cursor.fail .hexNumber .parsingQuoted start

def readEscape (start : Mark) : Reader Char := fun cursor =>
  match cursor.rest with
  | _ :: c :: _ =>
    match simpleEscape? c, escapeLength? c with
    | some plain, _ => .ok (plain, cursor.skipMany 2)
    | none, some count => readCodePoint start count (cursor.skipMany 2)
    | none, none => cursor.fail .escape .parsingQuoted start
  | _ => cursor.fail .escape .parsingQuoted start

/-- A run of a quoted scalar up to a gap or the closing quote, and the gap that has begun with an
escaped line break. The fuel bounds the number of characters. -/
def readQuotedRun (quote : Char) (start : Mark) : Nat → Reader (List Char × Gap)
  | 0, cursor => .ok (([], .none), cursor)
  | fuel + 1, cursor =>
    match cursor.rest with
    | [] => .ok (([], .none), cursor)
    | c :: rest =>
      let single := quote == '\''
      if isBlankChar c || isBreakChar c then .ok (([], .none), cursor)
      else if c = quote then
        if single && rest.head? == some quote then do
          let ((run, gap), stop) ← readQuotedRun quote start fuel (cursor.skipMany 2)
          return ((c :: run, gap), stop)
        else .ok (([], .none), cursor)
      else if !single && c == '\\' then
        if rest.head?.any isBreakChar then .ok (([], .escaped), cursor.skip.skipBreak)
        else do
          let (escaped, stop) ← readEscape start cursor
          let ((run, gap), stop) ← readQuotedRun quote start fuel stop
          return ((escaped :: run, gap), stop)
      else do
        let ((run, gap), stop) ← readQuotedRun quote start fuel cursor.skip
        return ((c :: run, gap), stop)

def readQuotedText (quote : Char) (start : Mark) : Nat → List Char → Reader (List Char)
  | 0, _, cursor => cursor.fail .streamEnd .scanningQuoted start
  | fuel + 1, text, cursor => do
    if cursor.atDocumentMark then cursor.fail .documentMark .scanningQuoted start
    else if cursor.rest = [] then cursor.fail .streamEnd .scanningQuoted start
    else
      let length := cursor.rest.length + 1
      let ((run, gap), stop) ← readQuotedRun quote start length cursor
      let text := text ++ run
      if stop.startsWith quote then return (text, stop.skip)
      else
        let (gap, stop) ← readGap (fun _ => false) start length gap stop
        readQuotedText quote start fuel (text ++ gap.text) stop

def readQuoted (quote : Char) : Reader Token := fun cursor => do
  let (text, stop) ← readQuotedText quote cursor.mark (cursor.rest.length + 1) [] cursor.skip
  return (⟨.scalar (String.ofList text) false, cursor.mark, stop.mark⟩, stop)

def isFlowMark (c : Char) : Bool :=
  c == ',' || c == '[' || c == ']' || c == '\x7b' || c == '\x7d'

def readPlainRun (inFlow : Bool) (start : Mark) : Nat → Reader (List Char)
  | 0, cursor => .ok ([], cursor)
  | fuel + 1, cursor =>
    match cursor.rest with
    | [] => .ok ([], cursor)
    | c :: rest =>
      if isBlankChar c || isBreakChar c then .ok ([], cursor)
      else if inFlow && c == ':' && rest.head?.any (fun d => isFlowMark d || d == '?') then
        cursor.fail .flowColon .scanningPlain start
      else if (c == ':' && cursor.gapAfter 1) || (inFlow && isFlowMark c) then .ok ([], cursor)
      else do
        let (run, stop) ← readPlainRun inFlow start fuel cursor.skip
        return (c :: run, stop)

/-- A plain scalar as far as it has been read: its text, the gap behind the text, and the place
where the text ends. -/
structure PlainState where
  text : List Char
  gap : Gap
  stop : Mark

def readPlainText (inFlow : Bool) (indent : Int) (start : Mark) :
    Nat → PlainState → Reader PlainState
  | 0, state, cursor => .ok (state, cursor)
  | fuel + 1, state, cursor => do
    if cursor.atDocumentMark || cursor.startsWith '#' then return (state, cursor)
    else
      let length := cursor.rest.length + 1
      let (run, stop) ← readPlainRun inFlow start length cursor
      let state : PlainState :=
        if run = [] then state else ⟨state.text ++ state.gap.text ++ run, .none, stop.mark⟩
      if !stop.isNext (fun c => isBlankChar c || isBreakChar c) then return (state, stop)
      else
        let (gap, stop) ←
          readGap (fun c => decide (c.mark.column < indent)) start length state.gap stop
        let state := { state with gap := gap }
        if !inFlow ∧ stop.mark.column < indent then return (state, stop)
        else readPlainText inFlow indent start fuel state stop

def readPlain (inFlow : Bool) (indent : Int) : Reader (Token × Bool) := fun cursor => do
  let start := cursor.mark
  let (state, stop) ←
    readPlainText inFlow indent start (cursor.rest.length + 1) ⟨[], .none, start⟩ cursor
  return ((⟨.scalar (String.ofList state.text) true, start, state.stop⟩, state.gap.broken), stop)

inductive Chomping where
  | strip
  | clip
  | keep
  deriving DecidableEq, Repr

def readChomping? (cursor : Cursor) : Option Chomping × Cursor :=
  match cursor.rest with
  | '+' :: _ => (some .keep, cursor.skip)
  | '-' :: _ => (some .strip, cursor.skip)
  | _ => (none, cursor)

def readIncrement (start : Mark) : Reader (Option Nat) := fun cursor =>
  match cursor.rest with
  | c :: _ =>
    if c = '0' then cursor.fail .zeroIndent .scanningBlockScalar start
    else if c.isDigit then .ok (some (c.toNat - '0'.toNat), cursor.skip)
    else .ok (none, cursor)
  | [] => .ok (none, cursor)

def readBlockHeader (start : Mark) : Reader (Chomping × Option Nat) := fun cursor => do
  match readChomping? cursor with
  | (some chomping, stop) =>
    let (increment, stop) ← readIncrement start stop
    return ((chomping, increment), stop)
  | (none, _) =>
    let (increment, stop) ← readIncrement start cursor
    if increment.isSome then
      let (chomping, stop) := readChomping? stop
      return ((chomping.getD .clip, increment), stop)
    else return ((.clip, none), stop)

/-- Line breaks with the blanks of the indentation in front of them: the breaks, the largest column
reached, and the place behind the last break. -/
structure Breaks where
  text : List Char
  widest : Nat
  stop : Mark

def readBreaks (start : Mark) (indent : Option Nat) : Nat → Breaks → Reader Breaks
  | 0, breaks, cursor => .ok (breaks, cursor)
  | fuel + 1, breaks, cursor =>
    let room := (cursor.rest.takeWhile (· == ' ')).length
    let width :=
      match indent with
      | none => room
      | some indent => min room (indent - cursor.mark.column)
    let cursor := cursor.skipMany width
    let breaks := { breaks with widest := max breaks.widest cursor.mark.column }
    if indent.all (cursor.mark.column < ·) && cursor.startsWith '\t' then
      cursor.fail .tabIndent .scanningBlockScalar start
    else if cursor.isNext isBreakChar then
      let (line, stop) := cursor.readBreak
      let breaks := { breaks with text := breaks.text ++ line, stop := stop.mark }
      readBreaks start indent fuel breaks stop
    else .ok (breaks, cursor)

/-- A block scalar as far as it has been read: its text, the last line break, the line breaks of the
empty lines behind it, and whether the last line began with a blank. -/
structure BlockState where
  text : List Char
  lineBreak : List Char
  emptyLines : Breaks
  blankStart : Bool

/-- What joins the next line to the text. A folded line break becomes a blank, except beside empty
lines and beside lines that begin with a blank. -/
def BlockState.joint (state : BlockState) (literal blank : Bool) : List Char :=
  if !literal && state.lineBreak == ['\n'] && !state.blankStart && !blank then
    if state.emptyLines.text = [] then [' '] else state.emptyLines.text
  else state.lineBreak ++ state.emptyLines.text

def readBlockLines (literal : Bool) (start : Mark) (indent : Nat) :
    Nat → BlockState → Reader BlockState
  | 0, state, cursor => .ok (state, cursor)
  | fuel + 1, state, cursor =>
    if cursor.mark.column = indent ∧ cursor.rest ≠ [] then do
      let blank := cursor.isNext isBlankChar
      let line := cursor.rest.takeWhile (fun c => !isBreakChar c)
      let (lineBreak, stop) := (cursor.skipMany line.length).readBreak
      let (emptyLines, stop) ←
        readBreaks start (some indent) (stop.rest.length + 1) ⟨[], 0, stop.mark⟩ stop
      let text := state.text ++ state.joint literal blank ++ line
      readBlockLines literal start indent fuel ⟨text, lineBreak, emptyLines, blank⟩ stop
    else .ok (state, cursor)

def readBlock (literal : Bool) (outer : Int) : Reader Token := fun cursor => do
  let start := cursor.mark
  let ((chomping, increment), stop) ← readBlockHeader start cursor.skip
  let stop ← readLineEnd .scanningBlockScalar start stop
  let given : Option Nat := increment.map fun n : Nat => (max outer 0).toNat + n
  let (breaks, stop) ← readBreaks start given (stop.rest.length + 1) ⟨[], 0, stop.mark⟩ stop
  let indent := given.getD (max breaks.widest (max (outer + 1) 1).toNat)
  let (state, stop) ←
    readBlockLines literal start indent (stop.rest.length + 1) ⟨[], [], breaks, false⟩ stop
  let tail :=
    match chomping with
    | .strip => []
    | .clip => state.lineBreak
    | .keep => state.lineBreak ++ state.emptyLines.text
  return (⟨.scalar (String.ofList (state.text ++ tail)) false, start, state.emptyLines.stop⟩, stop)

end Tabular.Yaml
