/-!
# Slots in the source of an expression

A slot is a pair of brackets around characters of a given class, at least one of them. Slots stand
for values that the expression itself cannot name.
-/

namespace Tabular.Expr

/-- A piece of a source: one character, or a slot with what stands between its brackets. -/
inductive Piece where
  | char (c : Char)
  | slot (body : List Char)
  deriving DecidableEq, Repr

/-- Slots are found from the left; `skip` counts the characters of a slot that are still to be
passed over. -/
def piecesAux (inside : Char → Bool) : Nat → List Char → List Piece
  | _, [] => []
  | skip + 1, _ :: cs => piecesAux inside skip cs
  | 0, c :: cs =>
    let body := cs.takeWhile inside
    if c = '[' ∧ body ≠ [] ∧ (cs.drop body.length).head? = some ']' then
      .slot body :: piecesAux inside (body.length + 1) cs
    else .char c :: piecesAux inside 0 cs

def pieces (inside : Char → Bool) (source : String) : List Piece :=
  piecesAux inside 0 source.toList

def slots (pieces : List Piece) : List (List Char) :=
  pieces.filterMap fun
    | .slot body => some body
    | .char _ => none

def fillSlots (fill : List Char → List Char) (pieces : List Piece) : String :=
  String.ofList (pieces.flatMap fun
    | .char c => [c]
    | .slot body => fill body)

def slotText (body : List Char) : List Char :=
  '[' :: body ++ [']']

def firsts {α : Type} [DecidableEq α] (items : List α) : List α :=
  items.foldl (fun known item => if item ∈ known then known else known ++ [item]) []

end Tabular.Expr
