import Tabular.Decimal.Integer

/-!
# Flaws in YAML text

Why a text is not YAML: the problem with its place, and what was being read at the time.
-/

namespace Tabular.Yaml

/-- A place in a text. Lines and columns are counted from zero. -/
structure Mark where
  index : Nat
  line : Nat
  column : Nat
  deriving DecidableEq, Repr

def Mark.start : Mark := ⟨0, 0, 0⟩

def Mark.isStart (mark : Mark) : Bool :=
  mark.line == 0 && mark.column == 0

def Mark.text (mark : Mark) : String :=
  "line " ++ Decimal.natText (mark.line + 1) ++ " column " ++ Decimal.natText (mark.column + 1)

/-- The place as it is added to a message; the beginning of the text is not mentioned. -/
def Mark.suffix (mark : Mark) : String :=
  if mark.isStart then "" else " at " ++ mark.text

inductive Problem where
  | controlCharacter
  | noToken
  | noColon
  | entryNotAllowed
  | keyNotAllowed
  | valueNotAllowed
  | directiveName
  | directiveNameMissing
  | directiveNameCharacter
  | lineEnd
  | versionPoint
  | versionLong
  | versionMissing
  | whitespace
  | whitespaceOrLineEnd
  | anchorName
  | tagClose
  | tagMark
  | tagUri
  | uriEscape
  | uriLead
  | uriTrail
  | zeroIndent
  | tabIndent
  | documentMark
  | streamEnd
  | escape
  | hexNumber
  | codePoint
  | flowColon
  | tabViolation
  | documentStart
  | versionTwice
  | versionUnknown
  | handleTwice
  | handleUnknown
  | nodeContent
  | entryMark
  | key
  | flowSequenceEnd
  | flowMappingEnd
  deriving DecidableEq, Repr

def Problem.text : Problem → String
  | controlCharacter => "control characters are not allowed"
  | noToken => "found character that cannot start any token"
  | noColon => "could not find expected ':'"
  | entryNotAllowed => "block sequence entries are not allowed in this context"
  | keyNotAllowed => "mapping keys are not allowed in this context"
  | valueNotAllowed => "mapping values are not allowed in this context"
  | directiveName => "found unknown directive name"
  | directiveNameMissing => "could not find expected directive name"
  | directiveNameCharacter => "found unexpected non-alphabetical character"
  | lineEnd => "did not find expected comment or line break"
  | versionPoint => "did not find expected digit or '.' character"
  | versionLong => "found extremely long version number"
  | versionMissing => "did not find expected version number"
  | whitespace => "did not find expected whitespace"
  | whitespaceOrLineEnd => "did not find expected whitespace or line break"
  | anchorName => "did not find expected alphabetic or numeric character"
  | tagClose => "did not find the expected '>'"
  | tagMark => "did not find expected '!'"
  | tagUri => "did not find expected tag URI"
  | uriEscape => "did not find URI escaped octet"
  | uriLead => "found an incorrect leading UTF-8 octet"
  | uriTrail => "found an incorrect trailing UTF-8 octet"
  | zeroIndent => "found an indentation indicator equal to 0"
  | tabIndent => "found a tab character where an indentation space is expected"
  | documentMark => "found unexpected document indicator"
  | streamEnd => "found unexpected end of stream"
  | escape => "found unknown escape character"
  | hexNumber => "did not find expected hexdecimal number"
  | codePoint => "found invalid Unicode character escape code"
  | flowColon => "found unexpected ':'"
  | tabViolation => "found a tab character that violates indentation"
  | documentStart => "did not find expected <document start>"
  | versionTwice => "found duplicate %YAML directive"
  | versionUnknown => "found incompatible YAML document"
  | handleTwice => "found duplicate %TAG directive"
  | handleUnknown => "found undefined tag handle"
  | nodeContent => "did not find expected node content"
  | entryMark => "did not find expected '-' indicator"
  | key => "did not find expected key"
  | flowSequenceEnd => "did not find expected ',' or ']'"
  | flowMappingEnd => "did not find expected ',' or '\x7d'"

inductive Activity where
  | scanningToken
  | scanningKey
  | scanningDirective
  | scanningVersion
  | scanningTagDirective
  | parsingTagDirective
  | scanningLowerTagDirective
  | parsingLowerTagDirective
  | scanningTag
  | parsingTag
  | scanningAnchor
  | scanningAlias
  | scanningBlockScalar
  | scanningQuoted
  | parsingQuoted
  | scanningPlain
  | parsingNode
  | parsingBlockNode
  | parsingFlowNode
  | parsingBlockCollection
  | parsingBlockMapping
  | parsingFlowSequence
  | parsingFlowMapping
  deriving DecidableEq, Repr

def Activity.text : Activity → String
  | scanningToken => "while scanning for the next token"
  | scanningKey => "while scanning a simple key"
  | scanningDirective => "while scanning a directive"
  | scanningVersion => "while scanning a %YAML directive"
  | scanningTagDirective => "while scanning a %TAG directive"
  | parsingTagDirective => "while parsing a %TAG directive"
  | scanningLowerTagDirective => "while scanning a tag directive"
  | parsingLowerTagDirective => "while parsing a tag directive"
  | scanningTag => "while scanning a tag"
  | parsingTag => "while parsing a tag"
  | scanningAnchor => "while scanning an anchor"
  | scanningAlias => "while scanning an alias"
  | scanningBlockScalar => "while scanning a block scalar"
  | scanningQuoted => "while scanning a quoted scalar"
  | parsingQuoted => "while parsing a quoted scalar"
  | scanningPlain => "while scanning a plain scalar"
  | parsingNode => "while parsing a node"
  | parsingBlockNode => "while parsing a block node"
  | parsingFlowNode => "while parsing a flow node"
  | parsingBlockCollection => "while parsing a block collection"
  | parsingBlockMapping => "while parsing a block mapping"
  | parsingFlowSequence => "while parsing a flow sequence"
  | parsingFlowMapping => "while parsing a flow mapping"

/-- A problem at its place, and an activity with the place where it began. The byte offset stands in
for the place where characters are refused before they are read. -/
structure Fault where
  problem : Problem
  mark : Mark
  offset : Nat
  activity : Option (Activity × Mark)
  deriving DecidableEq, Repr

/-- The beginning of the activity is mentioned where it is not the place of the problem. -/
def Fault.message (fault : Fault) : String :=
  let place :=
    if fault.mark.isStart && fault.offset != 0 then
      " at position " ++ Decimal.natText fault.offset
    else fault.mark.suffix
  let during :=
    match fault.activity with
    | none => ""
    | some (activity, began) =>
      let same := began.line == fault.mark.line && began.column == fault.mark.column
      ", " ++ activity.text ++ (if same then "" else began.suffix)
  fault.problem.text ++ place ++ during

end Tabular.Yaml
