import Tabular.Range.Basic
import Tabular.Text.Split

/-!
# Editing fields

An edit cuts a field, keeps some of the pieces, joins them again and puts texts around the result.
-/

namespace Tabular

structure Edit where
  /-- Where the field is cut; the empty text cuts nowhere. -/
  separator : String := ""
  /-- What the pieces are joined with, a comma if nothing is given. -/
  joiner : Option String := none
  /-- The pieces that are kept, all of them if nothing is given. -/
  pieces : Option Range := none
  /-- Put in front of the text. -/
  lead : Option String := none
  /-- Put behind the text. -/
  tail : Option String := none
  /-- Put on both sides at last. -/
  wrap : Option String := none
  /-- The result is a field of its own, and the edited field stays as it was. -/
  adds : Bool := false
  deriving DecidableEq, Repr

namespace Edit

def recut (edit : Edit) (text : String) : String :=
  if edit.separator.isEmpty then text
  else
    let parts := Text.splitAt edit.separator text
    let kept :=
      match edit.pieces with
      | some range => (range.select parts).map fun (part, _) => part.getD ""
      | none => parts
    (edit.joiner.getD ",").intercalate kept

/-- The text that an edit makes of another. -/
def apply (edit : Edit) (text : String) : String :=
  let inner := edit.lead.getD "" ++ edit.recut text ++ edit.tail.getD ""
  let around := edit.wrap.getD ""
  around ++ inner ++ around

/-- Applies one edit after the other. Each of them reads the field as the earlier ones left it, and
either changes it or adds a field. -/
def applyAll : List Edit → String → String × List String
  | [], field => (field, [])
  | edit :: edits, field =>
    if edit.adds then
      let (word, added) := applyAll edits field
      (word, edit.apply field :: added)
    else applyAll edits (edit.apply field)

end Edit

end Tabular
