import Tabular.Pattern.Basic
import Tabular.Pattern.Reader
import Tabular.Unicode.Script
import Tabular.Unicode.Fold

/-!
# The meaning of the trees

A tree is read with a set of flags, which may change along the way. Without Unicode a pattern speaks
of bytes; since texts are valid UTF-8, only ASCII bytes may be spoken of then.
-/

namespace Tabular.Pattern

structure Flags where
  ignoreCase : Bool := false
  multiLine : Bool := false
  dotAll : Bool := false
  unicode : Bool := true
  crlf : Bool := false

def Flags.change (flags : Flags) : FlagChanges → Flags
  | [] => flags
  | (flag, on) :: more =>
    let flags :=
      match flag with
      | .ignoreCase => { flags with ignoreCase := on }
      | .multiLine => { flags with multiLine := on }
      | .dotAll => { flags with dotAll := on }
      | .unicode => { flags with unicode := on }
      | .crlf => { flags with crlf := on }
      | .swapGreed | .extended => flags
    flags.change more

abbrev CodeSet := Nat → Bool

def isAsciiUpper (n : Nat) : Bool := 0x41 ≤ n && n ≤ 0x5a

def isAsciiLower (n : Nat) : Bool := 0x61 ≤ n && n ≤ 0x7a

def isAsciiDigit (n : Nat) : Bool := 0x30 ≤ n && n ≤ 0x39

def isAsciiAlphanumeric (n : Nat) : Bool :=
  isAsciiUpper n || isAsciiLower n || isAsciiDigit n

def isAsciiWord (n : Nat) : Bool := isAsciiAlphanumeric n || n == 0x5f

def isAsciiSpace (n : Nat) : Bool := (0x09 ≤ n && n ≤ 0x0d) || n == 0x20

def AsciiClass.contains : AsciiClass → CodeSet
  | alnum => isAsciiAlphanumeric
  | alpha => fun n => isAsciiUpper n || isAsciiLower n
  | ascii => fun n => n < 0x80
  | blank => fun n => n == 0x09 || n == 0x20
  | cntrl => fun n => n < 0x20 || n == 0x7f
  | digit => isAsciiDigit
  | graph => fun n => 0x21 ≤ n && n ≤ 0x7e
  | lower => isAsciiLower
  | print => fun n => 0x20 ≤ n && n ≤ 0x7e
  | punct => fun n => 0x21 ≤ n && n ≤ 0x7e && !isAsciiAlphanumeric n
  | space => isAsciiSpace
  | upper => isAsciiUpper
  | word => isAsciiWord
  | xdigit => fun n => isAsciiDigit n || (0x41 ≤ n && n ≤ 0x46) || (0x61 ≤ n && n ≤ 0x66)

def PerlClass.contains (unicode : Bool) : PerlClass → CodeSet
  | digit => if unicode then Unicode.isDecimalDigit else isAsciiDigit
  | space => if unicode then fun n => Text.isBlank (Char.ofNat n) else isAsciiSpace
  | word => if unicode then Unicode.isWord else isAsciiWord

def asciiVariants (n : Nat) : List Nat :=
  if isAsciiUpper n then [n, n + 32] else if isAsciiLower n then [n, n - 32] else [n]

/-- The set with the characters that differ from a member in case only, when case is ignored. -/
def Flags.close (flags : Flags) (set : CodeSet) : CodeSet :=
  if !flags.ignoreCase then set
  else if flags.unicode then Unicode.caseClosure set
  else fun n => (asciiVariants n).any set

def complementIf (negated : Bool) (set : CodeSet) : CodeSet :=
  if negated then fun n => !set n else set

/-- The name of a property in lower case, without blanks, underscores, hyphens and a leading `is`.
-/
def plainName (name : String) : String :=
  let cs := name.toList
  let isStart := (cs.take 2).map Char.toLower == ['i', 's']
  let body := if isStart then cs.drop 2 else cs
  let kept := body.filter fun c => c.toNat < 0x80 && c != ' ' && c != '_' && c != '-'
  let plain := kept.map Char.toLower
  if isStart && plain == ['c'] then "isc" else String.ofList plain

def Property.set? : Property → Except Flaw CodeSet
  | named name =>
    let name := plainName name
    let general := (Unicode.categoryNamed? name).or (Unicode.scriptNamed? name)
    let found :=
      if name = "cf" ∨ name = "sc" ∨ name = "lc" then general
      else (Unicode.propertyNamed? name).or general
    found.elim (.error .propertyUnknown) .ok
  | valued name value =>
    let value := plainName value
    match plainName name with
    | "gc" | "generalcategory" =>
      (Unicode.categoryNamed? value).elim (.error .propertyValueUnknown) .ok
    | "sc" | "script" | "scx" | "scriptextensions" =>
      (Unicode.scriptNamed? value).elim (.error .propertyValueUnknown) .ok
    | name =>
      .error (if (Unicode.propertyNamed? name).isSome then .propertyValueUnknown
        else .propertyUnknown)

/-- A complement holds more than ASCII, which without Unicode is refused. -/
def Flags.complement (flags : Flags) (span : Span) (negated : Bool) (set : CodeSet) :
    Except Fault CodeSet :=
  if negated && !flags.unicode then fail .invalidUtf8 span else .ok (complementIf negated set)

def Flags.property (flags : Flags) (span : Span) (negated : Bool) (property : Property) :
    Except Fault CodeSet :=
  if !flags.unicode then fail .unicodeNotAllowed span
  else
    match property.set? with
    | .ok set => .ok (complementIf negated (flags.close set))
    | .error flaw => fail flaw span

def Flags.member (flags : Flags) (l : Literal) : Except Fault Nat :=
  if flags.unicode ∨ l.char.toNat < 0x80 then .ok l.char.toNat
  else fail (if l.byte then .invalidUtf8 else .unicodeNotAllowed) l.span

def SetOp.apply (op : SetOp) (a b : CodeSet) : CodeSet := fun n =>
  match op with
  | intersection => a n && b n
  | difference => a n && !b n
  | symmetricDifference => a n != b n

mutual

def ClassItem.set (flags : Flags) : ClassItem → Except Fault CodeSet
  | .literal l => do
    let n ← flags.member l
    return (· == n)
  | .range _ first last => do
    let low ← flags.member first
    let high ← flags.member last
    return fun n => low ≤ n && n ≤ high
  | .ascii span negated kind => flags.complement span negated (flags.close kind.contains)
  | .perl span negated kind => flags.complement span negated (kind.contains flags.unicode)
  | .property span negated property => flags.property span negated property
  | .bracketed span negated set => do
    flags.complement span negated (flags.close (← ClassSet.set flags set))

def ClassSet.set (flags : Flags) : ClassSet → Except Fault CodeSet
  | .union items => unionSet flags items
  | .combined op left right => do
    let a ← ClassSet.set flags left
    let b ← ClassSet.set flags right
    return op.apply (flags.close a) (flags.close b)

def unionSet (flags : Flags) : List ClassItem → Except Fault CodeSet
  | [] => .ok fun _ => false
  | item :: items => do
    let a ← ClassItem.set flags item
    let b ← unionSet flags items
    return fun n => a n || b n

end

def isLineFeed (c : Option Nat) : Bool := c == some 0x0a

def isReturn (c : Option Nat) : Bool := c == some 0x0d

/-- The beginning of a line. With both line ends the gap between a carriage return and its line feed
is none. -/
def lineStart (crlf : Bool) : GapTest := fun before after =>
  before.isNone || isLineFeed before || (crlf && isReturn before && !isLineFeed after)

def lineEnd (crlf : Bool) : GapTest := fun before after =>
  if crlf then after.isNone || isReturn after || (isLineFeed after && !isReturn before)
  else after.isNone || isLineFeed after

def Look.test (flags : Flags) (look : Look) : GapTest := fun before after =>
  let inWord (c : Option Nat) := c.any (PerlClass.word.contains flags.unicode)
  match look with
  | startText => before.isNone
  | endText => after.isNone
  | startLine => if flags.multiLine then lineStart flags.crlf before after else before.isNone
  | endLine => if flags.multiLine then lineEnd flags.crlf before after else after.isNone
  | boundary => inWord before != inWord after
  | notBoundary => inWord before == inWord after
  | wordStart => !inWord before && inWord after
  | wordEnd => inWord before && !inWord after
  | wordStartHalf => !inWord before
  | wordEndHalf => !inWord after

/-- Estimates of the memory that sets of characters take. -/
def asciiSize : Nat := 32

def setSize : Nat := 400

def wordSize : Nat := 20000

def Primitive.pattern (flags : Flags) : Primitive → Except Fault Pattern
  | literal l =>
    if !flags.unicode ∧ l.byte ∧ 0x80 ≤ l.char.toNat then fail .invalidUtf8 l.span
    else
      let n := l.char.toNat
      .ok (.char (flags.close (· == n)) (asciiSize * l.char.utf8Size))
  | dot span =>
    if !flags.unicode then fail .invalidUtf8 span
    else if flags.dotAll then .ok (.char (fun _ => true) setSize)
    else if flags.crlf then .ok (.char (fun n => n != 0x0a && n != 0x0d) setSize)
    else .ok (.char (· != 0x0a) setSize)
  | look _ kind => .ok (.gap (kind.test flags))
  | perl span negated kind => do
    let set ← flags.complement span negated (kind.contains flags.unicode)
    return .char set (if flags.unicode && kind == .word then wordSize else setSize)
  | property span negated named => do
    return .char (← flags.property span negated named) setSize

mutual

def Tree.pattern : Tree → Flags → Except Fault (Pattern × Flags)
  | .empty, flags => .ok (.empty, flags)
  | .flags changes, flags => .ok (.empty, flags.change changes)
  | .primitive p, flags => do return (← p.pattern flags, flags)
  | .bracketed span negated set, flags => do
    let set ← ClassSet.set flags set
    return (.char (← flags.complement span negated (flags.close set)) setSize, flags)
  | .repeated _ body least most, flags => do
    let (body, flags) ← Tree.pattern body flags
    return (.times body least most, flags)
  | .group _ changes body, flags => do
    let (body, _) ← Tree.pattern body (flags.change changes)
    return (body, flags)
  | .concat _ items, flags => sequencePattern items flags
  | .alternation _ items, flags => eitherPattern items flags

def sequencePattern : List Tree → Flags → Except Fault (Pattern × Flags)
  | [], flags => .ok (.empty, flags)
  | item :: items, flags => do
    let (first, flags) ← Tree.pattern item flags
    let (second, flags) ← sequencePattern items flags
    return (.sequence first second, flags)

def eitherPattern : List Tree → Flags → Except Fault (Pattern × Flags)
  | [], flags => .ok (.char (fun _ => false) 0, flags)
  | item :: items, flags => do
    let (left, flags) ← Tree.pattern item flags
    let (right, flags) ← eitherPattern items flags
    return (.either left right, flags)

end

def read (source : String) : Except ReadError Pattern :=
  match readTree source.toList >>= fun tree => tree.pattern {} with
  | .error fault => .error (.malformed fault)
  | .ok (p, _) => if sizeLimit < p.size then .error .tooLarge else .ok p

end Tabular.Pattern
