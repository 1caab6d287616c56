import Tabular.Pattern.Error

/-!
# The trees of patterns

What a pattern says, with the stretches of text that say it.
-/

namespace Tabular.Pattern

inductive Flag where
  | ignoreCase
  | multiLine
  | dotAll
  | swapGreed
  | unicode
  | crlf
  | extended
  deriving DecidableEq, Repr

/-- Flags in the order in which they are switched, each on or off. -/
abbrev FlagChanges := List (Flag × Bool)

inductive Look where
  | startText
  | endText
  | startLine
  | endLine
  | boundary
  | notBoundary
  | wordStart
  | wordEnd
  | wordStartHalf
  | wordEndHalf
  deriving DecidableEq, Repr

/-- A single character. `byte` tells the two-digit hexadecimal escapes, which name a byte where
Unicode is switched off. -/
structure Literal where
  span : Span
  char : Char
  byte : Bool

inductive PerlClass where
  | digit
  | space
  | word
  deriving DecidableEq, Repr

inductive AsciiClass where
  | alnum
  | alpha
  | ascii
  | blank
  | cntrl
  | digit
  | graph
  | lower
  | print
  | punct
  | space
  | upper
  | word
  | xdigit
  deriving DecidableEq, Repr

inductive Property where
  | named (name : String)
  | valued (name value : String)

inductive Primitive where
  | literal (l : Literal)
  | dot (span : Span)
  | look (span : Span) (kind : Look)
  | perl (span : Span) (negated : Bool) (kind : PerlClass)
  | property (span : Span) (negated : Bool) (property : Property)

def Primitive.span : Primitive → Span
  | literal l => l.span
  | dot span | look span _ | perl span _ _ | property span _ _ => span

inductive SetOp where
  | intersection
  | difference
  | symmetricDifference
  deriving DecidableEq, Repr

mutual

inductive ClassItem where
  | literal (l : Literal)
  | range (span : Span) (first last : Literal)
  | ascii (span : Span) (negated : Bool) (kind : AsciiClass)
  | perl (span : Span) (negated : Bool) (kind : PerlClass)
  | property (span : Span) (negated : Bool) (property : Property)
  | bracketed (span : Span) (negated : Bool) (set : ClassSet)

inductive ClassSet where
  | union (items : List ClassItem)
  | combined (op : SetOp) (left right : ClassSet)

end

inductive Tree where
  | empty
  | flags (changes : FlagChanges)
  | primitive (p : Primitive)
  | bracketed (span : Span) (negated : Bool) (set : ClassSet)
  | repeated (span : Span) (body : Tree) (least : Nat) (most : Option Nat)
  | group (span : Span) (changes : FlagChanges) (body : Tree)
  | concat (span : Span) (items : List Tree)
  | alternation (span : Span) (items : List Tree)

/-- The stretch that says the tree; `none` for trees that cannot be repeated. -/
def Tree.span? : Tree → Option Span
  | empty | flags _ => none
  | primitive p => some p.span
  | bracketed span _ _ | repeated span _ _ _ | group span _ _ | concat span _
  | alternation span _ => some span

/-- A sequence, which is its only element if there is just one. -/
def Tree.ofItems (span : Span) : List Tree → Tree
  | [] => empty
  | [item] => item
  | items => concat span items

def ClassItem.span : ClassItem → Span
  | literal l => l.span
  | range span _ _ | ascii span _ _ | perl span _ _ | property span _ _ | bracketed span _ _ => span

mutual

/-- The first part of a class item that is nested too deep, with `depth` levels left. -/
def ClassItem.tooDeep? : ClassItem → Nat → Option Span
  | .bracketed span _ _, 0 => some span
  | .bracketed _ _ set, depth + 1 => ClassSet.tooDeep? set depth
  | _, _ => none

def ClassSet.tooDeep? : ClassSet → Nat → Option Span
  | .union items, depth =>
    match items, depth with
    | first :: second :: more, 0 =>
      some ⟨first.span.start, (((second :: more).getLast?).getD second).span.stop⟩
    | first :: second :: more, depth + 1 =>
      (ClassItem.tooDeep? first depth).or ((ClassItem.tooDeep? second depth).or
        (tooDeepItems? more depth))
    | [item], depth => ClassItem.tooDeep? item depth
    | [], _ => none
  | .combined _ left right, depth =>
    (ClassSet.tooDeep? left (depth - 1)).or (ClassSet.tooDeep? right (depth - 1))

def tooDeepItems? : List ClassItem → Nat → Option Span
  | [], _ => none
  | item :: items, depth => (ClassItem.tooDeep? item depth).or (tooDeepItems? items depth)

end

mutual

def Tree.tooDeep? : Tree → Nat → Option Span
  | .empty, _ | .flags _, _ | .primitive _, _ => none
  | .bracketed span _ _, 0 | .repeated span _ _ _, 0 | .group span _ _, 0 | .concat span _, 0
  | .alternation span _, 0 => some span
  | .bracketed _ _ set, depth + 1 => ClassSet.tooDeep? set depth
  | .repeated _ body _ _, depth + 1 | .group _ _ body, depth + 1 => Tree.tooDeep? body depth
  | .concat _ items, depth + 1 | .alternation _ items, depth + 1 => tooDeepTrees? items depth

def tooDeepTrees? : List Tree → Nat → Option Span
  | [], _ => none
  | tree :: trees, depth => (Tree.tooDeep? tree depth).or (tooDeepTrees? trees depth)

end

end Tabular.Pattern
