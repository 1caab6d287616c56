/-!
# Index ranges

A selection of rows or columns: listed indices or an interval, or everything else. Negative indices
count from the end, so they have a position only when the length is known.
-/

namespace Tabular

/-- What a range names. The end of an interval is exclusive, and a missing bound leaves that side
open. -/
inductive Span where
  | listed (indices : List Int)
  | interval (start stop : Option Int)
  deriving DecidableEq, Repr

/-- A span, or the complement of a span. -/
structure Range where
  span : Span
  excluded : Bool
  deriving DecidableEq, Repr

namespace Range

def all : Range := ⟨.interval none none, false⟩

def ofIndices (indices : List Int) : Range := ⟨.listed indices, false⟩

def complement (range : Range) : Range :=
  { range with excluded := true }

def isAll (range : Range) : Bool :=
  decide (range = all)

def integersFrom (start stop : Int) : List Int :=
  (List.range (stop - start).toNat).map fun n : Nat => start + n

def resolve (length : Nat) (index : Int) : Int :=
  if index < 0 then length + index else index

def needsLength (range : Range) : Bool :=
  match range.span with
  | .listed indices => indices.any (· < 0)
  | .interval start stop => start.any (· < 0) || stop.any (· < 0)

/-- The positions that the range names in a list of the given length, in the order of the range;
some may lie outside the list. The complement of a span holds positions of the list only. -/
def positionsBy (range : Range) (resolve : Int → Int) (length : Int) : List Int :=
  match range.span with
  | .listed indices =>
    let named := indices.map resolve
    if range.excluded then (integersFrom 0 length).filter (fun i => !named.contains i) else named
  | .interval start stop =>
    let first := (start.map resolve).getD 0
    let last := (stop.map resolve).getD length
    if range.excluded then
      (integersFrom 0 length).filter (fun i => !(decide (first ≤ i) && decide (i < last)))
    else integersFrom first last

def positions (range : Range) (length : Nat) : List Int :=
  range.positionsBy (resolve length) length

def inBounds? (length : Nat) (position : Int) : Option Nat :=
  if 0 ≤ position ∧ position < length then some position.toNat else none

def positionsInBounds (range : Range) (length : Nat) : List Nat :=
  (range.positions length).filterMap (inBounds? length)

/-- The elements at the positions of the range, each with its position. -/
def select {α : Type} (range : Range) (items : List α) : List (Option α × Int) :=
  (range.positions items.length).map fun position =>
    ((inBounds? items.length position).bind (items[·]?), position)

def resolve? (length : Option Nat) (index : Int) : Option Int :=
  match length with
  | some length => some (resolve length index)
  | none => if index < 0 then none else some index

/-- Whether a position is selected, when a negative index may have no position and then names
nothing. A missing stop leaves the positions up to `last?` or all of them. -/
def containsBy (range : Range) (resolve? : Int → Option Int) (last? : Option Int)
    (position : Int) : Bool :=
  let inside : Bool :=
    match range.span with
    | .listed indices => indices.any (fun i => resolve? i == some position)
    | .interval start stop =>
      let above : Bool :=
        match start with
        | none => decide (0 ≤ position)
        | some start => (resolve? start).any (fun first : Int => decide (first ≤ position))
      let below : Bool :=
        match stop with
        | none => last?.all (fun last : Int => decide (position < last))
        | some stop => (resolve? stop).any (fun last : Int => decide (position < last))
      above && below
  inside != range.excluded

def contains (range : Range) (position : Nat) (length : Option Nat) : Bool :=
  range.containsBy (resolve? length) none position

end Range

end Tabular
