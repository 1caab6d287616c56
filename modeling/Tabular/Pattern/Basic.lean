import Tabular.Pattern.Tree
import Tabular.Unicode.Word

/-!
# Patterns

A pattern describes stretches of text. It occurs in a text when one of the stretches of the text is
as described.

A set of places in a text is a list of marks, one for every gap between characters, from the gap in
front of the text to the gap behind it. A pattern takes such a set to the set of the places where
its stretches end that begin at a marked place.
-/

namespace Tabular

/-- A condition on the two characters beside a gap; there is none beyond the ends of the text. -/
abbrev GapTest := Option Nat → Option Nat → Bool

inductive Pattern where
  | empty
  /-- A character of a set of code points. The size is an estimate of the memory it takes. -/
  | char (set : Nat → Bool) (size : Nat)
  | gap (test : GapTest)
  | sequence (first second : Pattern)
  | either (left right : Pattern)
  /-- At least `least` times, and at most `most` times if there is such a bound. -/
  | times (body : Pattern) (least : Nat) (most : Option Nat)

namespace Pattern

abbrev Marks := List Bool

def Marks.or (a b : Marks) : Marks :=
  List.zipWith (· || ·) a b

/-- The marked places whose next character is in the set, moved behind it. -/
def Marks.shift (set : Nat → Bool) (text : List Nat) (marks : Marks) : Marks :=
  false :: List.zipWith (fun marked c => marked && set c) marks text

def gaps (before : Option Nat) : List Nat → List (Option Nat × Option Nat)
  | [] => [(before, none)]
  | c :: text => (before, some c) :: gaps (some c) text

def Marks.keep (test : GapTest) (text : List Nat) (marks : Marks) : Marks :=
  List.zipWith (fun marked (before, after) => marked && test before after) marks (gaps none text)

/-- Everything reached by up to `fuel` steps; `fresh` are the places from which no step has been
made yet. -/
def closure (step : Marks → Marks) : Nat → Marks → Marks → Marks
  | 0, seen, _ => seen
  | fuel + 1, seen, fresh =>
    let next := List.zipWith (fun new old => new && !old) (step fresh) seen
    if next.any id then closure step fuel (seen.or next) next else seen

def iterate (step : Marks → Marks) : Nat → Marks → Marks
  | 0, marks => marks
  | n + 1, marks => if marks.any id then iterate step n (step marks) else marks

/-- The places where stretches end that begin at a marked place. -/
def reach (text : List Nat) : Pattern → Marks → Marks
  | empty, marks => marks
  | char set _, marks => marks.shift set text
  | gap test, marks => marks.keep test text
  | sequence first second, marks => reach text second (reach text first marks)
  | either left right, marks => (reach text left marks).or (reach text right marks)
  | times body least most, marks =>
    let start := iterate (reach text body) least marks
    let further :=
      match most with
      | some most => most - least
      | none => text.length + 1
    closure (reach text body) further start start

/-- Whether the pattern describes some stretch of the text. -/
def occursIn (p : Pattern) (text : String) : Bool :=
  let codes := text.toList.map Char.toNat
  (p.reach codes (List.replicate (codes.length + 1) true)).any id

/-- An estimate of the memory that the pattern takes, in bytes. -/
def size : Pattern → Nat
  | empty => 0
  | char _ size => size
  | gap _ => 32
  | sequence first second => first.size + second.size
  | either left right => 40 + left.size + right.size
  | times body least none => (least + 1) * body.size + 40
  | times body _ (some most) => most * (body.size + 8)

end Pattern

end Tabular
