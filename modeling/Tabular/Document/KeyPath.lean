import Tabular.Text.Split

/-!
# Key paths

A path into a document names a member at every step. It is written with points between the names;
a point that belongs to a name has a backslash in front of it.
-/

namespace Tabular.KeyPath

def consFirst (c : Char) : List (List Char) → List (List Char)
  | [] => [[c]]
  | first :: more => (c :: first) :: more

/-- Cuts at the points without a backslash. -/
def cut : List Char → List (List Char)
  | [] => [[]]
  | '\\' :: '.' :: cs => consFirst '.' (cut cs)
  | '.' :: cs => [] :: cut cs
  | c :: cs => consFirst c (cut cs)

def split (path : String) : List String :=
  (cut path.toList).map String.ofList

def escape (name : String) : List Char :=
  name.toList.flatMap fun c => if c = '.' then ['\\', '.'] else [c]

/-- The written path of a member of what stands at `path`; the empty path stands for the document.
-/
def join (path name : String) : String :=
  if path.isEmpty then String.ofList (escape name)
  else String.ofList (path.toList ++ '.' :: escape name)

def ofNames (names : List String) : String :=
  names.foldl join ""

/-- The common spelling of all written paths with the same names. -/
def normalize (path : String) : String :=
  ofNames (split path)

def hasEscapedPoint : List Char → Bool
  | '\\' :: '.' :: _ => true
  | _ :: cs => hasEscapedPoint cs
  | [] => false

/-- A path as it is listed: between quotes when a point in it belongs to a name. -/
def display (path : String) : String :=
  if hasEscapedPoint path.toList then "'" ++ path ++ "'" else path

end Tabular.KeyPath
