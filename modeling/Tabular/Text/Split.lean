import Tabular.Text.Blank

/-!
# Pieces of a text

Cutting at every element of a class, and at every occurrence of a separator text. A text with `n`
cuts has `n + 1` pieces, so the empty text has one empty piece.
-/

namespace Tabular.Text

/-- The stretches between the elements that satisfy `cut`. -/
def piecesBy {α : Type} (cut : α → Bool) : List α → List (List α)
  | [] => [[]]
  | x :: xs =>
    if cut x then [] :: piecesBy cut xs
    else
      match piecesBy cut xs with
      | [] => [[x]]
      | piece :: more => (x :: piece) :: more

def dropLead? : List Char → List Char → Option (List Char)
  | [], cs => some cs
  | _ :: _, [] => none
  | l :: lead, c :: cs => if l = c then dropLead? lead cs else none

def stripLead? (lead s : String) : Option String :=
  (dropLead? lead.toList s.toList).map String.ofList

def startsWith (lead s : String) : Bool :=
  (dropLead? lead.toList s.toList).isSome

def stripTail? (tail s : String) : Option String :=
  (dropLead? tail.toList.reverse s.toList.reverse).map (fun cs => String.ofList cs.reverse)

/-- Occurrences of `separator` are found from the left and do not overlap; `skip` counts the
characters of an occurrence that are still to be passed over. -/
def piecesAtAux (separator : List Char) : Nat → List Char → List (List Char)
  | _, [] => [[]]
  | skip + 1, _ :: cs => piecesAtAux separator skip cs
  | 0, c :: cs =>
    if separator.isPrefixOf (c :: cs) then
      [] :: piecesAtAux separator (separator.length - 1) cs
    else
      match piecesAtAux separator 0 cs with
      | [] => [[c]]
      | piece :: more => (c :: piece) :: more

def piecesAt (separator cs : List Char) : List (List Char) :=
  piecesAtAux separator 0 cs

/-- The texts between the occurrences of `separator`; an empty separator gives the characters. -/
def splitAt (separator s : String) : List String :=
  if separator.isEmpty then s.toList.map String.singleton
  else (piecesAt separator.toList s.toList).map String.ofList

def splitAtChar (separator : Char) (s : String) : List String :=
  (piecesBy (· == separator) s.toList).map String.ofList

def words (s : String) : List String :=
  ((piecesBy isBlank s.toList).filter (fun piece => !piece.isEmpty)).map String.ofList

theorem piecesBy_ne_nil {α : Type} (cut : α → Bool) (xs : List α) : piecesBy cut xs ≠ [] := by
  induction xs with
  | nil => simp [piecesBy]
  | cons x xs _ =>
    unfold piecesBy
    split
    · simp
    · split <;> simp

end Tabular.Text
