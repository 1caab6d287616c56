import Tabular.Range.Basic

/-!
# Ranges over machine words

Lengths and positions as machine words. A length that no signed word can hold is negative as a
signed word, so a range has other positions there than in a list of that length.
-/

namespace Tabular.Range

def signedWord (n : UInt64) : Int :=
  n.toInt64.toInt

/-- Counts a negative index from the end. The sum wraps around. -/
def resolveWord (length : UInt64) (index : Int) : Int :=
  if index < 0 then (length.toInt64 + Int64.ofInt index).toInt else index

def wordPositions (range : Range) (length : UInt64) : List Int :=
  range.positionsBy (resolveWord length) (signedWord length)

def wordPositionsInBounds (range : Range) (length : UInt64) : List Nat :=
  (range.wordPositions length).filterMap (inBounds? length.toNat)

def resolveWord? (length : Option UInt64) (index : Int) : Option Int :=
  match length with
  | some length => some (resolveWord length index)
  | none => if index < 0 then none else some index

/-- Whether a position is selected. Where the stop is missing, the greatest signed word stands for
it. -/
def wordContains (range : Range) (position : UInt64) (length : Option UInt64) : Bool :=
  range.containsBy (resolveWord? length) (some Int64.maxValue.toInt) (signedWord position)

end Tabular.Range
