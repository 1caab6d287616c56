import Tabular.Cell
import Tabular.Document.Lookup

/-!
# Documents as rows

The requested paths form a tree. The first node of the tree with more than one child is the grouping
point: every object there becomes a row of its own, which holds what the document has at the paths
inside that object.
-/

namespace Tabular

/-- A node of the tree of requested paths. -/
structure KeyTree where
  /-- By name, in the order in which the names were first requested. -/
  children : List (String × KeyTree)
  /-- Whether a requested path ends here. -/
  requested : Bool
  /-- The written path of the node. -/
  path : String

namespace KeyTree

def empty (path : String) : KeyTree := ⟨[], false, path⟩

def insert : List String → KeyTree → KeyTree
  | [], node => { node with requested := true }
  | name :: names, node =>
    let fresh := empty (KeyPath.join node.path name)
    { node with children := Keyed.update name fresh (insert names) node.children }

def ofKeys (keys : List String) : KeyTree :=
  keys.foldl (fun tree key => tree.insert (KeyPath.split key)) (empty "")

end KeyTree

/-- Values of a document, each with the written path at which it was requested. -/
abbrev Findings := List (String × Json)

namespace Findings

def valuesAt (findings : Findings) (path : String) : List Json :=
  (findings.filter (·.1 == path)).map (·.2)

end Findings

namespace Document

mutual

/-- What an object holds at the paths behind a node. -/
def findings (members : List (String × Json)) : KeyTree → Findings
  | ⟨children, _, _⟩ => childFindings members children

def childFindings (members : List (String × Json)) : List (String × KeyTree) → Findings
  | [] => []
  | (name, child) :: children =>
    let items := (member? name members).elim [] Json.items
    items.flatMap (itemFindings child) ++ childFindings members children

/-- What one value holds that stands at a node. An object at a node with children is looked into,
and is taken itself only where a path ends. -/
def itemFindings : KeyTree → Json → Findings
  | ⟨children, requested, path⟩, item =>
    match item, children with
    | .object members, _ :: _ =>
      childFindings members children ++ if requested then [(path, item)] else []
    | _, _ => [(path, item)]

end

/-- What a document holds at the requested paths: the values that belong to no object at the
grouping point, and those of each such object. -/
structure Gathered where
  loose : Findings
  groups : List Findings

namespace Gathered

def none : Gathered := ⟨[], []⟩

def append (a b : Gathered) : Gathered :=
  ⟨a.loose ++ b.loose, a.groups ++ b.groups⟩

def join (parts : List Gathered) : Gathered :=
  parts.foldr append none

end Gathered

/-- Gathers what an object above the grouping point, or at it, holds behind a node. -/
def gather (members : List (String × Json)) : KeyTree → Gathered
  | ⟨[], _, _⟩ => .none
  | ⟨[(name, child)], _, _⟩ =>
    let items := (member? name members).elim [] Json.items
    .join (items.map fun item =>
      match item, child.children with
      | .object inner, _ :: _ =>
        (gather inner child).append ⟨if child.requested then [(child.path, item)] else [], []⟩
      | _, _ => ⟨[(child.path, item)], []⟩)
  | ⟨children, _, _⟩ => ⟨[], [childFindings members children]⟩

/-- The cell of the values at one path: a set if they are several and all simple, and a list if they
are several otherwise. -/
def collapse : List Json → Cell
  | [] => .text ""
  | [value] => .ofJson value
  | values =>
    if values.all Json.isSimple then .set (TextSet.ofList (values.map Json.plainText))
    else .structured (.array values)

def rowOf (paths : List String) (findings : Findings) : Row :=
  paths.map fun path => collapse (findings.valuesAt path)

/-- The rows of a document for some keys, whose tree is given. Without a grouping point a single key
has a row for each of its values, and several keys have one row. -/
def flatten (tree : KeyTree) (keys : List String) : Json → List Row
  | .object members =>
    let gathered := gather members tree
    let paths := keys.map KeyPath.normalize
    if gathered.groups.isEmpty then
      match paths with
      | [path] => (gathered.loose.valuesAt path).map fun value => [Cell.ofJson value]
      | _ => if gathered.loose.isEmpty then [] else [rowOf paths gathered.loose]
    else gathered.groups.map (rowOf paths)
  | _ => []

end Document

end Tabular
