import Tabular.Pattern.Cursor

/-!
# Reading patterns

Classes in brackets first, then repetitions, groups and alternatives.
-/

namespace Tabular.Pattern

def AsciiClass.ofName? (name : String) : Option AsciiClass :=
  match name with
  | "alnum" => some alnum
  | "alpha" => some alpha
  | "ascii" => some ascii
  | "blank" => some blank
  | "cntrl" => some cntrl
  | "digit" => some digit
  | "graph" => some graph
  | "lower" => some lower
  | "print" => some print
  | "punct" => some punct
  | "space" => some space
  | "upper" => some upper
  | "word" => some word
  | "xdigit" => some xdigit
  | _ => none

/-- A named class such as `[:alpha:]` or `[:^alpha:]`. Anything else is left for a class in
brackets. -/
def readAsciiClass? (cursor : Cursor) : Option (ClassItem × Cursor) :=
  match Text.dropLead? ['[', ':'] cursor.rest with
  | none => none
  | some rest =>
    let (negated, body) : Bool × List Char :=
      match rest with
      | '^' :: body => (true, body)
      | _ => (false, rest)
    let name := body.takeWhile (· != ':')
    match body.dropWhile (· != ':'), AsciiClass.ofName? (String.ofList name) with
    | ':' :: ']' :: behind, some kind =>
      let stop := cursor.advance (cursor.rest.length - behind.length)
      some (.ascii (stop.since cursor.place) negated kind, stop)
    | _, _ => none

def readClassPrimitive (extended : Bool) : Reader Primitive := fun cursor =>
  match cursor.rest with
  | '\\' :: _ => readEscape extended cursor
  | c :: _ => .ok (.literal ⟨cursor.nextSpan, c, false⟩, cursor.bump)
  | [] => fail .classUnclosed cursor.here

def Primitive.classItem (p : Primitive) : Except Fault ClassItem :=
  match p with
  | literal l => .ok (.literal l)
  | perl span negated kind => .ok (.perl span negated kind)
  | property span negated named => .ok (.property span negated named)
  | dot span | look span _ => fail .classEscape span

def Primitive.rangeEnd (p : Primitive) : Except Fault Literal :=
  match p with
  | literal l => .ok l
  | _ => fail .classRangeEnd p.span

/-- A member of a class, or a range. `outer` is the beginning of the class, where a missing end
shows. -/
def readClassItem (extended : Bool) (outer : Span) : Reader ClassItem := fun cursor => do
  let (first, stop) ← readClassPrimitive extended cursor
  let stop := stop.skip extended
  match stop.rest with
  | [] => fail .classUnclosed outer
  | c :: _ =>
    let behind := stop.peekBehind? extended
    if c ≠ '-' ∨ behind = some ']' ∨ behind = some '-' then
      let item ← first.classItem
      return (item, stop)
    else
      let next := stop.step extended
      if next.atEnd then fail .classUnclosed outer
      else
        let (last, stop) ← readClassPrimitive extended next
        let low ← first.rangeEnd
        let high ← last.rangeEnd
        let span : Span := ⟨first.span.start, last.span.stop⟩
        if high.char < low.char then fail .classRange span
        else return (.range span low high, stop)

/-- The beginning of a class: its bracket, its negation, and the dashes or the closing bracket that
stand for themselves there. -/
structure ClassStart where
  span : Span
  negated : Bool
  items : List ClassItem

def readDashes (extended : Bool) (start : Place) : Nat → List ClassItem → Reader (List ClassItem)
  | 0, items, cursor => .ok (items, cursor)
  | fuel + 1, items, cursor =>
    match cursor.rest with
    | '-' :: _ =>
      let next := cursor.step extended
      if next.atEnd then fail .classUnclosed ⟨start, start⟩
      else readDashes extended start fuel (items ++ [.literal ⟨cursor.nextSpan, '-', false⟩]) next
    | _ => .ok (items, cursor)

def readClassStart (extended : Bool) : Reader ClassStart := fun cursor => do
  let start := cursor.place
  let next := cursor.step extended
  match next.rest with
  | [] => fail .classUnclosed (next.since start)
  | c :: _ =>
    let negated := c == '^'
    let next := if negated then next.step extended else next
    if next.atEnd then fail .classUnclosed (next.since start)
    let (dashes, next) ← readDashes extended start (next.rest.length + 1) [] next
    match next.rest with
    | ']' :: _ =>
      if dashes = [] then
        let behind := next.step extended
        if behind.atEnd then fail .classUnclosed (behind.since start)
        return (⟨behind.since start, negated, [.literal ⟨next.nextSpan, ']', false⟩]⟩, behind)
      else return (⟨next.since start, negated, dashes⟩, next)
    | _ => return (⟨next.since start, negated, dashes⟩, next)

def setOp? : List Char → Option SetOp
  | '&' :: '&' :: _ => some .intersection
  | '-' :: '-' :: _ => some .difference
  | '~' :: '~' :: _ => some .symmetricDifference
  | _ => none

/-- The left side of a set operator and the operator, where there is one, applied to the members
behind it. -/
def closeSet (pending : Option (ClassSet × SetOp)) (items : List ClassItem) : ClassSet :=
  match pending with
  | none => .union items
  | some (left, op) => .combined op left (.union items)

mutual

def readClassBody (extended : Bool) (outer : ClassStart) :
    Nat → Option (ClassSet × SetOp) → List ClassItem → Reader ClassSet
  | 0, _, _, cursor => fail .classUnclosed cursor.here
  | fuel + 1, pending, items, cursor => do
    let cursor := cursor.skip extended
    match cursor.rest with
    | [] => fail .classUnclosed outer.span
    | ']' :: _ => return (closeSet pending items, cursor.bump)
    | '[' :: _ =>
      match readAsciiClass? cursor with
      | some (item, stop) => readClassBody extended outer fuel pending (items ++ [item]) stop
      | none =>
        let ((start, set), stop) ← readClass extended fuel cursor
        let item := ClassItem.bracketed (stop.since cursor.place) start.negated set
        readClassBody extended outer fuel pending (items ++ [item]) stop
    | _ =>
      match setOp? cursor.rest with
      | some op =>
        readClassBody extended outer fuel (some (closeSet pending items, op)) []
          (cursor.advance 2)
      | none =>
        let (item, stop) ← readClassItem extended outer.span cursor
        readClassBody extended outer fuel pending (items ++ [item]) stop

def readClass (extended : Bool) : Nat → Reader (ClassStart × ClassSet)
  | 0, cursor => fail .classUnclosed cursor.here
  | fuel + 1, cursor => do
    let (start, next) ← readClassStart extended cursor
    let (set, stop) ← readClassBody extended start fuel none start.items next
    return ((start, set), stop)

end

def readBracketed (extended : Bool) : Reader Tree := fun cursor => do
  let ((start, set), stop) ← readClass extended (2 * cursor.rest.length + 2) cursor
  return (.bracketed (stop.since cursor.place) start.negated set, stop)

/-- A whole number below `2 ^ 32`, with blanks around it. What is wrong with it may matter less than
what follows it, so the cursor is given also then. -/
def readCount (extended : Bool) (cursor : Cursor) : Except Fault Nat × Cursor :=
  let start := cursor.advance (cursor.rest.takeWhile Text.isBlank).length
  let (digits, stop) := start.run extended Char.isDigit
  let (_, behind) := stop.run extended Text.isBlank
  let count : Except Fault Nat :=
    match Decimal.readNat? digits with
    | none => fail .countEmpty (stop.since start.place)
    | some n => if n < Nat.pow 2 32 then .ok n else fail .decimalInvalid (stop.since start.place)
  (count, behind)

/-- The bounds of a repetition in braces, up to the closing brace; the cursor is at the opening
brace. -/
def readBounds (extended : Bool) : Reader (Nat × Option Nat) := fun cursor => do
  let unclosed (stop : Cursor) : Except Fault ((Nat × Option Nat) × Cursor) :=
    fail .countUnclosed (stop.since cursor.place)
  let next := cursor.step extended
  if next.atEnd then unclosed next
  else
    let (least, stop) := readCount extended next
    match stop.rest with
    | [] => unclosed stop
    | ',' :: _ =>
      let next := stop.step extended
      match next.rest with
      | [] => unclosed next
      | '\x7d' :: _ => return ((← least, none), next)
      | _ =>
        let least ← least
        let (most, stop) := readCount extended next
        let most ← most
        if stop.rest.head? = some '\x7d' then return ((least, some most), stop) else unclosed stop
    | c :: _ =>
      let least ← least
      if c = '\x7d' then return ((least, some least), stop) else unclosed stop

def repeatable (items : List Tree) (cursor : Cursor) : Except Fault (Tree × Span) :=
  match items with
  | [] => fail .nothingToRepeat cursor.here
  | item :: _ =>
    match item.span? with
    | some span => .ok (item, span)
    | none => fail .nothingToRepeat cursor.here

def skipLazy (cursor : Cursor) : Cursor :=
  if cursor.rest.head? = some '?' then cursor.bump else cursor

/-- A repetition of the last tree, with the trees read so far in reverse order; the cursor is at the
operator. -/
def readRepetition (extended : Bool) (items : List Tree) : Reader (List Tree) := fun cursor => do
  let (body, span) ← repeatable items cursor
  let finish (least : Nat) (most : Option Nat) (stop : Cursor) :
      Except Fault (List Tree × Cursor) :=
    .ok (.repeated ⟨span.start, stop.place⟩ body least most :: items.drop 1, stop)
  match cursor.rest with
  | '?' :: _ => finish 0 (some 1) (skipLazy cursor.bump)
  | '*' :: _ => finish 0 none (skipLazy cursor.bump)
  | '+' :: _ => finish 1 none (skipLazy cursor.bump)
  | _ =>
    let ((least, most), stop) ← readBounds extended cursor
    let stop := skipLazy (stop.step extended)
    if most.any (· < least) then fail .countRange (stop.since cursor.place)
    else finish least most stop

def flag? (c : Char) : Option Flag :=
  match c with
  | 'i' => some .ignoreCase
  | 'm' => some .multiLine
  | 's' => some .dotAll
  | 'U' => some .swapGreed
  | 'u' => some .unicode
  | 'R' => some .crlf
  | 'x' => some .extended
  | _ => none

/-- The flags read so far with their stretches, and the stretch of the minus sign behind which flags
are switched off. -/
structure FlagState where
  flags : List (Flag × Bool × Span)
  negation : Option Span

def readFlags : Nat → FlagState → Option Span → Reader FlagState
  | 0, _, _, cursor => fail .flagsUnfinished cursor.here
  | fuel + 1, state, dangling, cursor =>
    match cursor.rest with
    | [] => fail .flagsUnfinished cursor.here
    | c :: _ =>
      if c = ':' ∨ c = ')' then
        match dangling with
        | some span => fail .flagDangling span
        | none => .ok (state, cursor)
      else if c = '-' then
        match state.negation with
        | some earlier => .error ⟨.flagNegatedTwice, cursor.nextSpan, some earlier⟩
        | none =>
          readFlags fuel { state with negation := some cursor.nextSpan } (some cursor.nextSpan)
            cursor.bump
      else
        match flag? c with
        | none => fail .flagUnknown cursor.nextSpan
        | some flag =>
          match state.flags.find? (·.1 == flag) with
          | some (_, _, earlier) => .error ⟨.flagTwice, cursor.nextSpan, some earlier⟩
          | none =>
            let entry := (flag, state.negation.isNone, cursor.nextSpan)
            readFlags fuel { state with flags := state.flags ++ [entry] } none cursor.bump

def FlagState.changes (state : FlagState) : FlagChanges :=
  state.flags.map fun (flag, on, _) => (flag, on)

def isNameChar (first : Bool) (c : Char) : Bool :=
  let n := c.toNat
  if first then c == '_' || Unicode.isAlphabetic n
  else c == '_' || c == '.' || c == '[' || c == ']' || Unicode.isAlphanumeric n

def readNameChars : Nat → Bool → Reader (List Char)
  | 0, _, cursor => fail .nameUnfinished cursor.here
  | fuel + 1, first, cursor =>
    match cursor.rest with
    | [] => fail .nameUnfinished cursor.here
    | c :: _ =>
      if c = '>' then .ok ([], cursor)
      else if isNameChar first c then do
        let (more, stop) ← readNameChars fuel false cursor.bump
        return (c :: more, stop)
      else fail .nameInvalid cursor.nextSpan

abbrev Names := List (String × Span)

def readName (names : Names) : Reader Names := fun cursor => do
  let (chars, stop) ← readNameChars (cursor.rest.length + 1) true cursor
  let name := String.ofList chars
  if chars = [] then fail .nameEmpty cursor.here
  match names.find? (·.1 == name) with
  | some (_, earlier) => .error ⟨.nameTwice, stop.since cursor.place, some earlier⟩
  | none => return ((name, stop.since cursor.place) :: names, stop.bump)

/-- What an opening parenthesis begins. -/
inductive Opening where
  /-- Flags for the rest of the enclosing group. -/
  | flags (changes : FlagChanges)
  | group (changes : FlagChanges) (names : Names)

def lookAroundMarks : List (List Char) :=
  [['?', '='], ['?', '!'], ['?', '<', '='], ['?', '<', '!']]

def readOpening (extended : Bool) (names : Names) : Reader Opening := fun cursor => do
  let next := cursor.bump.skip extended
  match lookAroundMarks.find? (·.isPrefixOf next.rest) with
  | some mark => fail .lookAround ((next.advance mark.length).since cursor.place)
  | none =>
    let nameMarks : List (List Char) := [['?', 'P', '<'], ['?', '<']]
    match nameMarks.find? (·.isPrefixOf next.rest), next.rest with
    | some mark, _ =>
      let (names, stop) ← readName names (next.advance mark.length)
      return (.group [] names, stop)
    | none, '?' :: _ =>
      let inner := next.bump
      if inner.atEnd then fail .groupUnclosed cursor.nextSpan
      let (state, stop) ← readFlags (inner.rest.length + 1) ⟨[], none⟩ none inner
      if stop.rest.head? = some ')' then
        if state.flags.isEmpty && state.negation.isNone then fail .nothingToRepeat next.here
        else return (.flags state.changes, stop.bump)
      else return (.group state.changes names, stop.bump)
    | none, _ => return (.group [] names, next)

/-- What is known inside a group: whether blanks are passed over, and the names given so far. -/
structure Mode where
  extended : Bool
  names : Names

def Mode.change (mode : Mode) (changes : FlagChanges) : Mode :=
  match changes.find? (·.1 == .extended) with
  | some (_, on) => { mode with extended := on }
  | none => mode

/-- The alternatives read so far in reverse order, where the first of them began, the trees of the
current one in reverse order, and where it began. -/
structure Progress where
  before : List Tree
  start : Place
  items : List Tree
  itemStart : Place

namespace Progress

def begin_ (place : Place) : Progress := ⟨[], place, [], place⟩

def push (progress : Progress) (item : Tree) : Progress :=
  { progress with items := item :: progress.items }

def current (progress : Progress) (cursor : Cursor) : Tree :=
  Tree.ofItems (cursor.since progress.itemStart) progress.items.reverse

def next (progress : Progress) (cursor : Cursor) : Progress :=
  { progress with
    before := progress.current cursor :: progress.before
    items := []
    itemStart := cursor.bump.place }

def finish (progress : Progress) (cursor : Cursor) : Tree :=
  if progress.before.isEmpty then progress.current cursor
  else
    .alternation (cursor.since progress.start) (progress.current cursor :: progress.before).reverse

end Progress

/-- Alternatives up to the end of the text or a closing parenthesis, which is left. -/
def readAlternatives : Nat → Mode → Progress → Reader (Tree × Names)
  | 0, _, _, cursor => fail .groupUnclosed cursor.here
  | fuel + 1, mode, progress, cursor => do
    let cursor := cursor.skip mode.extended
    match cursor.rest with
    | [] | ')' :: _ => return ((progress.finish cursor, mode.names), cursor)
    | '(' :: _ =>
      let (opening, stop) ← readOpening mode.extended mode.names cursor
      match opening with
      | .flags changes =>
        readAlternatives fuel (mode.change changes) (progress.push (.flags changes)) stop
      | .group changes names =>
        let inner := { mode with names := names }.change changes
        let ((body, names), close) ← readAlternatives fuel inner (.begin_ stop.place) stop
        if close.atEnd then fail .groupUnclosed cursor.nextSpan
        let stop := close.bump
        let group := Tree.group (stop.since cursor.place) changes body
        readAlternatives fuel { mode with names := names } (progress.push group) stop
    | '|' :: _ => readAlternatives fuel mode (progress.next cursor) cursor.bump
    | '[' :: _ =>
      let (tree, stop) ← readBracketed mode.extended cursor
      readAlternatives fuel mode (progress.push tree) stop
    | '\\' :: _ =>
      let (p, stop) ← readEscape mode.extended cursor
      readAlternatives fuel mode (progress.push (.primitive p)) stop
    | c :: _ =>
      if c = '?' ∨ c = '*' ∨ c = '+' ∨ c = '\x7b' then
        let (items, stop) ← readRepetition mode.extended progress.items cursor
        readAlternatives fuel mode { progress with items := items } stop
      else
        let span := cursor.nextSpan
        let p : Primitive :=
          if c = '.' then .dot span
          else if c = '^' then .look span .startLine
          else if c = '$' then .look span .endLine
          else .literal ⟨span, c, false⟩
        readAlternatives fuel mode (progress.push (.primitive p)) cursor.bump

def nestLimit : Nat := 250

def readTree (pattern : List Char) : Except Fault Tree := do
  let start := Cursor.ofChars pattern
  let ((tree, _), stop) ←
    readAlternatives (pattern.length + 1) ⟨false, []⟩ (.begin_ start.place) start
  if !stop.atEnd then fail .groupUnopened stop.nextSpan
  match tree.tooDeep? nestLimit with
  | some span => fail (.tooDeep nestLimit) span
  | none => return tree

end Tabular.Pattern
