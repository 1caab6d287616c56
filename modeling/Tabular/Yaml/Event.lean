import Tabular.Yaml.Lexer

/-!
# Events of YAML

The structure of a stream of documents as a list of events: scalars, aliases, and the beginnings and
ends of sequences, mappings and documents.

What is still to be read is a stack of goals. A step takes the top goal, looks at the tokens, and
gives events and the goals that replace it.
-/

namespace Tabular.Yaml

structure Properties where
  anchor : Option String
  tag : Option String
  deriving DecidableEq, Repr

def Properties.none : Properties := ⟨.none, .none⟩

inductive EventKind where
  | scalar (properties : Properties) (text : String) (plain : Bool)
  | alias (name : String)
  | sequenceStart (properties : Properties)
  | sequenceEnd
  | mappingStart (properties : Properties)
  | mappingEnd
  | documentEnd
  deriving DecidableEq, Repr

structure Event where
  kind : EventKind
  mark : Mark
  deriving DecidableEq, Repr

def Event.emptyScalar (mark : Mark) : Event := ⟨.scalar .none "" true, mark⟩

/-- What is to be read next. Collections carry the place where they began. -/
inductive Goal where
  /-- A document, at the beginning of the text or behind another one. -/
  | document (first : Bool)
  | content
  | documentEnd
  /-- A node, in a block or in brackets, which may be a sequence that is not indented. -/
  | node (block unindented : Bool)
  | blockEntry (start : Mark)
  | unindentedEntry
  | blockKey (start : Mark)
  | blockValue (start : Mark)
  | flowEntry (start : Mark) (first : Bool)
  /-- The parts of a mapping with a single pair, which stands in a sequence without braces. -/
  | pairKey
  | pairValue
  | pairEnd
  | flowKey (start : Mark) (first : Bool)
  | flowValue
  | missingFlowValue
  deriving DecidableEq, Repr

/-- The tokens that are left, and the fault behind the last of them. -/
structure Source where
  tokens : List Token
  fault : Option Fault

abbrev Handles := List (String × String)

def Handles.standard : Handles := [("!", "!"), ("!!", "tag:yaml.org,2002:")]

/-- What one step gives: events, goals instead of the one taken, and the handles and tokens from
there on. -/
structure Step where
  events : List Event
  goals : List Goal
  handles : Handles
  tokens : List Token

def Source.next (source : Source) : Except Fault Token :=
  match source.tokens, source.fault with
  | token :: _, _ => .ok token
  | [], some fault => .error fault
  | [], none => .ok ⟨.streamEnd, Mark.start, Mark.start⟩

def Source.drop (source : Source) : Source :=
  { source with tokens := source.tokens.drop 1 }

def Token.refuse {α : Type} (token : Token) (problem : Problem) (activity : Activity)
    (start : Mark) : Except Fault α :=
  .error ⟨problem, token.start, 0, some (activity, start)⟩

def Token.refuseAlone {α : Type} (token : Token) (problem : Problem) : Except Fault α :=
  .error ⟨problem, token.start, 0, none⟩

def readDirectives : Nat → Handles → Bool → Source → Except Fault (Handles × Source)
  | 0, handles, _, source => .ok (handles, source)
  | fuel + 1, handles, versioned, source => do
    let token ← source.next
    match token.kind with
    | .version major minor =>
      if versioned then token.refuseAlone .versionTwice
      else if major ≠ 1 ∨ (minor ≠ 1 ∧ minor ≠ 2) then token.refuseAlone .versionUnknown
      else readDirectives fuel handles true source.drop
    | .tagDirective handle lead =>
      if handles.any (·.1 == handle) then token.refuseAlone .handleTwice
      else readDirectives fuel (handles ++ [(handle, lead)]) versioned source.drop
    | _ => return (handles, source)

def isDirective (kind : TokenKind) : Bool :=
  match kind with
  | .version .. | .tagDirective .. => true
  | _ => false

def skipDocumentEnds : Nat → Source → Source
  | 0, source => source
  | fuel + 1, source =>
    match source.tokens with
    | ⟨.documentEnd, _, _⟩ :: _ => skipDocumentEnds fuel source.drop
    | _ => source

def stepDocument (first : Bool) (handles : Handles) (source : Source) : Except Fault Step := do
  let source := if first then source else skipDocumentEnds (source.tokens.length + 1) source
  let token ← source.next
  if token.kind = .streamEnd then return ⟨[], [], handles, []⟩
  else if first ∧ token.kind ≠ .documentStart ∧ !isDirective token.kind then
    return ⟨[], [.node true false, .documentEnd], .standard, source.tokens⟩
  else
    let (defined, source) ← readDirectives (source.tokens.length + 1) [] false source
    let token ← source.next
    if token.kind ≠ .documentStart then token.refuseAlone .documentStart
    else
      let handles := defined ++ Handles.standard
      return ⟨[], [.content, .documentEnd], handles, source.drop.tokens⟩

def stepContent (handles : Handles) (source : Source) : Except Fault Step := do
  let token ← source.next
  if isDirective token.kind ∨ token.kind = .documentStart ∨ token.kind = .documentEnd ∨
      token.kind = .streamEnd then
    return ⟨[.emptyScalar token.start], [], handles, source.tokens⟩
  else return ⟨[], [.node true false], handles, source.tokens⟩

def stepDocumentEnd (handles : Handles) (source : Source) : Except Fault Step := do
  let token ← source.next
  let source := if token.kind = .documentEnd then source.drop else source
  return ⟨[⟨.documentEnd, token.start⟩], [.document false], handles, source.tokens⟩

def readProperties (source : Source) :
    Except Fault (Option String × Option (String × String × Mark) × Source) := do
  let token ← source.next
  match token.kind with
  | .anchor name =>
    let source := source.drop
    let next ← source.next
    match next.kind with
    | .tag handle suffix => return (some name, some (handle, suffix, next.start), source.drop)
    | _ => return (some name, none, source)
  | .tag handle suffix =>
    let source := source.drop
    let next ← source.next
    match next.kind with
    | .anchor name => return (some name, some (handle, suffix, token.start), source.drop)
    | _ => return (none, some (handle, suffix, token.start), source)
  | _ => return (none, none, source)

def resolveTag (handles : Handles) (start : Mark) :
    Option (String × String × Mark) → Except Fault (Option String)
  | none => .ok none
  | some (handle, suffix, mark) =>
    if handle = "" then .ok (some suffix)
    else
      match handles.find? (·.1 == handle) with
      | some (_, lead) => .ok (some (lead ++ suffix))
      | none => .error ⟨.handleUnknown, mark, 0, some (.parsingNode, start)⟩

/-- The event of a scalar. A tag that is only an exclamation mark is none, and makes the scalar
plain. -/
def scalarEvent (properties : Properties) (text : String) (plain : Bool) (mark : Mark) : Event :=
  if properties.tag = some "!" then ⟨.scalar { properties with tag := none } text plain, mark⟩
  else ⟨.scalar properties text plain, mark⟩

def stepNode (block unindented : Bool) (handles : Handles) (source : Source) :
    Except Fault Step := do
  let first ← source.next
  let start := first.start
  match first.kind with
  | .alias name => return ⟨[⟨.alias name, start⟩], [], handles, source.drop.tokens⟩
  | _ =>
    let (anchor, parts, source) ← readProperties source
    let token ← source.next
    let properties : Properties := ⟨anchor, ← resolveTag handles start parts⟩
    let open_ (event : EventKind) (goal : Goal) (rest : Source) : Except Fault Step :=
      .ok ⟨[⟨event, start⟩], [goal], handles, rest.tokens⟩
    match token.kind with
    | .scalar text plain =>
      return ⟨[scalarEvent properties text plain start], [], handles, source.drop.tokens⟩
    | .flowSequenceStart =>
      open_ (.sequenceStart properties) (.flowEntry token.start true) source.drop
    | .flowMappingStart =>
      open_ (.mappingStart properties) (.flowKey token.start true) source.drop
    | kind =>
      if unindented ∧ kind = .blockEntry then
        open_ (.sequenceStart properties) .unindentedEntry source
      else if block ∧ kind = .blockSequenceStart then
        open_ (.sequenceStart properties) (.blockEntry token.start) source.drop
      else if block ∧ kind = .blockMappingStart then
        open_ (.mappingStart properties) (.blockKey token.start) source.drop
      else if anchor.isSome ∨ properties.tag.isSome then
        return ⟨[⟨.scalar properties "" true, start⟩], [], handles, source.tokens⟩
      else
        token.refuse .nodeContent (if block then .parsingBlockNode else .parsingFlowNode) start

/-- A node, or an empty scalar at `mark` if the next token is one of `ends`; `goal` comes after
it. -/
def nodeUnless (ends : List TokenKind) (node goal : Goal) (mark : Token → Mark) (handles : Handles)
    (source : Source) : Except Fault Step := do
  let token ← source.next
  if token.kind ∈ ends then
    return ⟨[.emptyScalar (mark token)], [goal], handles, source.tokens⟩
  else return ⟨[], [node, goal], handles, source.tokens⟩

def stepBlockEntry (start : Mark) (handles : Handles) (source : Source) : Except Fault Step := do
  let token ← source.next
  match token.kind with
  | .blockEntry =>
    nodeUnless [.blockEntry, .blockEnd] (.node true false) (.blockEntry start)
      (fun _ => token.stop) handles source.drop
  | .blockEnd => return ⟨[⟨.sequenceEnd, token.start⟩], [], handles, source.drop.tokens⟩
  | _ => token.refuse .entryMark .parsingBlockCollection start

def stepUnindentedEntry (handles : Handles) (source : Source) : Except Fault Step := do
  let token ← source.next
  match token.kind with
  | .blockEntry =>
    nodeUnless [.blockEntry, .key, .value, .blockEnd] (.node true false) .unindentedEntry
      (fun _ => token.stop) handles source.drop
  | _ => return ⟨[⟨.sequenceEnd, token.start⟩], [], handles, source.tokens⟩

def stepBlockKey (start : Mark) (handles : Handles) (source : Source) : Except Fault Step := do
  let token ← source.next
  match token.kind with
  | .key =>
    nodeUnless [.key, .value, .blockEnd] (.node true true) (.blockValue start)
      (fun _ => token.stop) handles source.drop
  | .blockEnd => return ⟨[⟨.mappingEnd, token.start⟩], [], handles, source.drop.tokens⟩
  | _ => token.refuse .key .parsingBlockMapping start

def stepBlockValue (start : Mark) (handles : Handles) (source : Source) : Except Fault Step := do
  let token ← source.next
  match token.kind with
  | .value =>
    nodeUnless [.key, .value, .blockEnd] (.node true true) (.blockKey start) (fun _ => token.stop)
      handles source.drop
  | _ => return ⟨[.emptyScalar token.start], [.blockKey start], handles, source.tokens⟩

def readFlowComma (first : Bool) (problem : Problem) (activity : Activity) (start : Mark)
    (source : Source) : Except Fault Source := do
  let token ← source.next
  if first then return source
  else if token.kind = .flowEntry then return source.drop
  else token.refuse problem activity start

def stepFlowEntry (start : Mark) (first : Bool) (handles : Handles) (source : Source) :
    Except Fault Step := do
  let token ← source.next
  let close (token : Token) (source : Source) : Except Fault Step :=
    .ok ⟨[⟨.sequenceEnd, token.start⟩], [], handles, source.drop.tokens⟩
  if token.kind = .flowSequenceEnd then close token source
  else
    let source ← readFlowComma first .flowSequenceEnd .parsingFlowSequence start source
    let token ← source.next
    match token.kind with
    | .key =>
      return ⟨[⟨.mappingStart .none, token.start⟩], [.pairKey, .flowEntry start false], handles,
        source.drop.tokens⟩
    | .flowSequenceEnd => close token source
    | _ => return ⟨[], [.node false false, .flowEntry start false], handles, source.tokens⟩

/-- A missing key takes the token at its place with it. -/
def stepPairKey (handles : Handles) (source : Source) : Except Fault Step := do
  let token ← source.next
  if token.kind = .value ∨ token.kind = .flowEntry ∨ token.kind = .flowSequenceEnd then
    return ⟨[.emptyScalar token.stop], [.pairValue], handles, source.drop.tokens⟩
  else return ⟨[], [.node false false, .pairValue], handles, source.tokens⟩

def stepPairValue (handles : Handles) (source : Source) : Except Fault Step := do
  let token ← source.next
  match token.kind with
  | .value =>
    nodeUnless [.flowEntry, .flowSequenceEnd] (.node false false) .pairEnd Token.start handles
      source.drop
  | _ => return ⟨[.emptyScalar token.start], [.pairEnd], handles, source.tokens⟩

def stepPairEnd (handles : Handles) (source : Source) : Except Fault Step := do
  let token ← source.next
  return ⟨[⟨.mappingEnd, token.start⟩], [], handles, source.tokens⟩

def stepFlowKey (start : Mark) (first : Bool) (handles : Handles) (source : Source) :
    Except Fault Step := do
  let token ← source.next
  let close (token : Token) (source : Source) : Except Fault Step :=
    .ok ⟨[⟨.mappingEnd, token.start⟩], [], handles, source.drop.tokens⟩
  if token.kind = .flowMappingEnd then close token source
  else
    let source ← readFlowComma first .flowMappingEnd .parsingFlowMapping start source
    let token ← source.next
    match token.kind with
    | .key =>
      let step ← nodeUnless [.value, .flowEntry, .flowMappingEnd] (.node false false) .flowValue
        Token.start handles source.drop
      return { step with goals := step.goals ++ [.flowKey start false] }
    | .flowMappingEnd => close token source
    | _ =>
      return ⟨[], [.node false false, .missingFlowValue, .flowKey start false], handles,
        source.tokens⟩

def stepFlowValue (handles : Handles) (source : Source) : Except Fault Step := do
  let token ← source.next
  match token.kind with
  | .value =>
    let source := source.drop
    let next ← source.next
    if next.kind = .flowEntry ∨ next.kind = .flowMappingEnd then
      return ⟨[.emptyScalar next.start], [], handles, source.tokens⟩
    else return ⟨[], [.node false false], handles, source.tokens⟩
  | _ => return ⟨[.emptyScalar token.start], [], handles, source.tokens⟩

def stepMissingFlowValue (handles : Handles) (source : Source) : Except Fault Step := do
  let token ← source.next
  return ⟨[.emptyScalar token.start], [], handles, source.tokens⟩

def Goal.step (goal : Goal) (handles : Handles) (source : Source) : Except Fault Step :=
  match goal with
  | document first => stepDocument first handles source
  | content => stepContent handles source
  | documentEnd => stepDocumentEnd handles source
  | node block unindented => stepNode block unindented handles source
  | blockEntry start => stepBlockEntry start handles source
  | unindentedEntry => stepUnindentedEntry handles source
  | blockKey start => stepBlockKey start handles source
  | blockValue start => stepBlockValue start handles source
  | flowEntry start first => stepFlowEntry start first handles source
  | pairKey => stepPairKey handles source
  | pairValue => stepPairValue handles source
  | pairEnd => stepPairEnd handles source
  | flowKey start first => stepFlowKey start first handles source
  | flowValue => stepFlowValue handles source
  | missingFlowValue => stepMissingFlowValue handles source

/-- The events that meet the goals, in reverse order behind those found before, or those in front of
the first fault. The fuel bounds the number of steps. -/
def meet (fault : Option Fault) :
    Nat → List Goal → Handles → List Token → List Event → List Event × Option Fault
  | 0, _, _, _, events => (events.reverse, none)
  | _ + 1, [], _, _, events => (events.reverse, none)
  | fuel + 1, goal :: goals, handles, tokens, events =>
    match goal.step handles ⟨tokens, fault⟩ with
    | .error fault => (events.reverse, some fault)
    | .ok step =>
      meet fault fuel (step.goals ++ goals) step.handles step.tokens (step.events.reverse ++ events)

/-- The events of a text, up to its end or to a fault. A token is behind at most four steps that
take none. -/
def events (text : List Char) : List Event × Option Fault :=
  let (found, fault) := tokens text
  meet fault (8 * (found.length + 2)) [.document true] .standard found []

end Tabular.Yaml
