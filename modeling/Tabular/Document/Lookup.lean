import Tabular.Json.Basic
import Tabular.Document.KeyPath

/-!
# Looking into documents

The value at a path, and the paths that a document has.
-/

namespace Tabular.Document

def member? (name : String) (members : List (String × Json)) : Option Json :=
  (members.find? (·.1 == name)).map (·.2)

/-- The value behind the names. What is missing is empty text, and a list on the way gives the list
of what its objects hold. -/
def lookup : List String → Json → Json
  | [], value => value
  | name :: names, value =>
    let inObject (members : List (String × Json)) : Json :=
      ((member? name members).map (lookup names)).getD (.string "")
    match value with
    | .object members => inObject members
    | .array items =>
      .array (items.filterMap fun
        | .object members => some (inObject members)
        | _ => none)
    | _ => .string ""

mutual

/-- The paths of the members inside a value that stands at `path`, and of those inside them. -/
def pathsInside (path : String) : Json → List String
  | .object members => pathsOfMembers path members
  | .array items => pathsOfItems path items
  | _ => []

def pathsOfMembers (path : String) : List (String × Json) → List String
  | [] => []
  | (name, value) :: members =>
    KeyPath.join path name :: pathsInside (KeyPath.join path name) value ++
      pathsOfMembers path members

/-- A list that stands directly in a list is not looked into. -/
def pathsOfItems (path : String) : List Json → List String
  | [] => []
  | .object members :: items => pathsOfMembers path members ++ pathsOfItems path items
  | _ :: items => pathsOfItems path items

end

def paths : Json → List String
  | .object members => pathsOfMembers "" members
  | _ => []

def keyPaths (documents : List Json) : List String :=
  (documents.flatMap paths).foldl (fun known path => Keyed.insertKey path known) []

end Tabular.Document
