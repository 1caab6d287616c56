import Tabular.Proofs.Document.Findings
import Tabular.Proofs.Keyed

/-!
# The grouping point

Where the tree of the requested paths first branches, every object of the document that stands
there becomes a row. The cell of a path in this row is made of what the object holds behind the
rest of the path, as enumerated by `Document.found`, and of nothing else.
-/

namespace Tabular

/-- A list or an object. -/
inductive Json.Branches : Json → Prop where
  | array (items : List Json) : Branches (.array items)
  | object (members : List (String × Json)) : Branches (.object members)

theorem Json.isSimple_iff {value : Json} : value.isSimple = true ↔ ¬value.Branches := by
  constructor
  · rintro simple (_ | _) <;> cases simple
  · intro leaf
    cases value with
    | array items => exact absurd (.array items) leaf
    | object members => exact absurd (.object members) leaf
    | _ => rfl

theorem TextSet.toList_ofList (texts : List String) :
    (TextSet.ofList texts).toList = texts.eraseDups := by
  induction texts using List.reverseRecOn with
  | nil => rfl
  | append_singleton texts text ih =>
    have last : ofList (texts ++ [text]) = (ofList texts).insert text := List.foldl_concat ..
    rw [last, insert, Keyed.eraseDups_concat, ← ih]
    by_cases known : text ∈ texts
    · rw [dif_pos (mem_ofList.mpr known), if_pos known]
    · rw [dif_neg fun member => known (mem_ofList.mp member), if_neg known]

/-- The names that lead from a node to the first node with more than one child, through nodes with
one child each. -/
def KeyTree.branching? : KeyTree → Option (List String)
  | ⟨[], _, _⟩ => none
  | ⟨[(name, child)], _, _⟩ => (branching? child).map (name :: ·)
  | ⟨_ :: _ :: _, _, _⟩ => some []

namespace Document

open KeyTree

/-- What becomes of the values at one path. -/
inductive Collects : List Json → Cell → Prop where
  | none : Collects [] (.text "")
  | one (value : Json) : Collects [value] (.ofJson value)
  | texts {values : List Json} {set : TextSet} :
      1 < values.length → (∀ value ∈ values, ¬value.Branches) →
      set.toList = (values.map Json.plainText).eraseDups → Collects values (.set set)
  | list {values : List Json} {value : Json} :
      1 < values.length → value ∈ values → value.Branches →
      Collects values (.structured (.array values))

/-- The objects of a document at some names, in the order of the document. -/
def objectsAt (names : List String) (document : Json) : List Json :=
  (found names document).filter Json.isObject

/-- The objects among what one element holds behind the names. -/
def objectsIn (names : List String) (item : Json) : List Json :=
  (foundIn names item).filter Json.isObject

def groupOf (node : KeyTree) : Json → Findings
  | .object members => childFindings members node.children
  | _ => []

theorem groups_join (parts : List Gathered) :
    (Gathered.join parts).groups = parts.flatMap Gathered.groups := by
  induction parts with
  | nil => rfl
  | cons part parts ih =>
    rw [List.flatMap_cons, ← ih]
    rfl

theorem objectsIn_of_not_object (names : List String) {item : Json}
    (noObject : item.isObject = false) :
    objectsIn names item = [] := by
  cases names with
  | nil => simp [objectsIn, foundIn, noObject]
  | cons name names =>
    cases item with
    | object members => cases noObject
    | _ => rfl

theorem objectsIn_cons (name : String) (names : List String) (members : List (String × Json)) :
    objectsIn (name :: names) (.object members) =
      ((member? name members).elim [] Json.items).flatMap (objectsIn names) := by
  rw [objectsIn, foundIn]
  cases member? name members with
  | none => rfl
  | some value => simp only [Option.elim_some, found_eq_flatMap, List.filter_flatMap]; rfl

theorem groups_gather_single {name : String} {child : KeyTree} {requested : Bool} {path : String}
    (further : child.children ≠ []) (members : List (String × Json)) :
    (gather members ⟨[(name, child)], requested, path⟩).groups =
      ((member? name members).elim [] Json.items).flatMap fun
        | .object inner => (gather inner child).groups
        | _ => [] := by
  obtain ⟨first, rest, children⟩ := List.exists_cons_of_ne_nil further
  rw [gather, groups_join, List.flatMap_map]
  congr 1
  funext item
  cases item with
  | object inner => simp [children, Gathered.append]
  | _ => rfl

/-- The tree branches first at a node that asks for all that the tree asks for behind it, and the
groups are the findings of the objects there. -/
theorem exists_groups_eq {names before : List String} {tree : KeyTree}
    (branches : tree.branching? = some names) (stands : StandsAt before tree) :
    ∃ node, StandsAt (before ++ names) node ∧
      (∀ more, Asks (names ++ more) tree → Asks more node) ∧
      ∀ members, (gather members tree).groups =
        (objectsIn names (.object members)).map (groupOf node) := by
  induction names generalizing before tree with
  | nil =>
    obtain ⟨children, requested, path⟩ := tree
    match children with
    | [] => simp [branching?] at branches
    | [(name, child)] => simp [branching?] at branches
    | first :: second :: rest =>
      exact ⟨_, by simpa using stands, fun _ asks => asks, fun members => rfl⟩
  | cons name names ih =>
    obtain ⟨children, requested, path⟩ := tree
    match children with
    | [] => simp [branching?] at branches
    | first :: second :: rest => simp [branching?] at branches
    | [(only, child)] =>
      obtain ⟨later, inner, same⟩ := Option.map_eq_some_iff.mp branches
      obtain ⟨rfl, rfl⟩ := List.cons_eq_cons.mp same
      have here : StandsAt (before ++ [only]) child := by
        cases stands with
        | node _ _ below => exact below only child List.mem_cons_self
      obtain ⟨node, nodeStands, nodeAsks, groups⟩ := ih inner here
      have further : child.children ≠ [] := by
        intro none
        rcases child with ⟨_ | _, _, _⟩
        · simp [branching?] at inner
        · cases none
      refine ⟨node, by simpa using nodeStands, fun more asks => ?_, fun members => ?_⟩
      · cases asks with
        | inside member deeper =>
          cases List.mem_singleton.mp member
          exact nodeAsks more deeper
      · rw [groups_gather_single further, objectsIn_cons, List.map_flatMap]
        congr 1
        funext item
        cases item with
        | object inner => exact groups inner
        | _ => rw [objectsIn_of_not_object _ rfl, List.map_nil]

theorem valuesAt_groupOf {names more : List String} {name : String} {node : KeyTree}
    (stands : StandsAt names node) (asks : Asks (name :: more) node)
    (readable : KeyPath.split (KeyPath.ofNames (names ++ name :: more)) = names ++ name :: more)
    (members : List (String × Json)) :
    Findings.valuesAt (groupOf node (.object members)) (KeyPath.ofNames (names ++ name :: more)) =
      found (name :: more) (.object members) := by
  cases asks with
  | @inside _ _ child children requested path member further =>
    cases stands with
    | node _ distinct below =>
      have inner (item : Json) := valuesAt_itemFindings (below name child member) (by simp) further
        (by simpa using readable) item
      simp only [List.append_assoc, List.singleton_append] at inner
      rw [found_object]
      exact valuesAt_childFindings distinct below member readable inner members

theorem collects_collapse (values : List Json) : Collects values (collapse values) := by
  match values with
  | [] => exact .none
  | [value] => exact .one value
  | first :: second :: more =>
    have several : 1 < (first :: second :: more).length := by simp
    rw [collapse.eq_3 _ (by simp) (by simp)]
    split
    · rename_i simple
      refine .texts several (fun value member => ?_) (TextSet.toList_ofList _)
      exact Json.isSimple_iff.mp (List.all_eq_true.mp simple value member)
    · rename_i mixed
      obtain ⟨value, member, branches⟩ :=
        List.all_eq_false.mp (Bool.eq_false_iff.mpr mixed)
      refine .list several member ?_
      rwa [Json.isSimple_iff, not_not] at branches

/-- Behind the node at which the requested paths first branch, a document has one row for each
object that stands there. The cell of a path collects what this object holds behind the rest of the
path: it is empty for no value, the cell of a single one, the set of the texts of several simple
ones, and the list of several others. -/
theorem flatten_eq_map_objectsAt {keys names : List String} {members : List (String × Json)}
    (branches : (ofKeys keys).branching? = some names)
    (named : ∀ key ∈ keys, (KeyPath.split key).head? ≠ some "")
    (behind : ∀ key ∈ keys, names <+: KeyPath.split key ∧ KeyPath.split key ≠ names)
    (reached : objectsAt names (.object members) ≠ []) :
    flatten (ofKeys keys) keys (.object members) =
        (objectsAt names (.object members)).map (fun object =>
          keys.map fun key => collapse (found ((KeyPath.split key).drop names.length) object)) ∧
      ∀ values, Collects values (collapse values) := by
  refine ⟨?_, collects_collapse⟩
  obtain ⟨node, stands, asks, groups⟩ := exists_groups_eq branches (standsAt_ofKeys named)
  rw [List.nil_append] at stands
  have objects : objectsAt names (.object members) = objectsIn names (.object members) := by
    rw [objectsAt, found_object, objectsIn]
  rw [objects] at reached ⊢
  have grouped : ((objectsIn names (.object members)).map (groupOf node)).isEmpty = false := by
    simpa using reached
  simp only [flatten, groups, grouped, Bool.false_eq_true, if_false, List.map_map]
  refine List.map_congr_left fun object member => ?_
  obtain ⟨inner, rfl⟩ : ∃ inner, object = .object inner := by
    have isObject := (List.mem_filter.mp member).2
    cases object with
    | object inner => exact ⟨inner, rfl⟩
    | _ => cases isObject
  simp only [Function.comp_apply, rowOf, List.map_map]
  refine List.map_congr_left fun key known => ?_
  obtain ⟨⟨rest, whole⟩, longer⟩ := behind key known
  obtain ⟨name, more, rfl⟩ : ∃ name more, rest = name :: more :=
    List.exists_cons_of_ne_nil fun none => longer (by rw [← whole, none, List.append_nil])
  have readable := KeyPath.split_ofNames (KeyPath.writable_split (named key known))
  have asked := asks (name :: more) (whole ▸ asks_ofKeys known)
  rw [← whole] at readable ⊢
  rw [Function.comp_apply, KeyPath.normalize, ← whole, List.drop_left,
    valuesAt_groupOf stands asked readable]

/-- Lists and stray values stand between the grouping point and the ends of the paths, and one of
the paths leads into another one. -/
theorem flatten_pods :
    let keys := ["pods.name", "pods.parts", "pods.parts.a\\.b"]
    let document : Json := .object [("pods", .array [
      .object [("name", .string "p"), ("parts", .array [.object [("a.b", .int 1)], .int 2])],
      .string "stray",
      .object [("parts", .object [("a.b", .array [.int 3, .int 4])])]])]
    (ofKeys keys).branching? = some ["pods"] ∧
    (∀ key ∈ keys, (KeyPath.split key).head? ≠ some "") ∧
    (∀ key ∈ keys, ["pods"] <+: KeyPath.split key ∧ KeyPath.split key ≠ ["pods"]) ∧
    objectsAt ["pods"] document ≠ [] ∧
    flatten (ofKeys keys) keys document =
      [[.text "p", .structured (.array [.object [("a.b", .int 1)], .int 2]), .int 1],
        [.text "", .structured (.object [("a.b", .array [.int 3, .int 4])]),
          .set (TextSet.ofList ["3", "4"])]] := by
  intro keys document
  have branches : (ofKeys keys).branching? = some ["pods"] := by decide +kernel
  have named : ∀ key ∈ keys, (KeyPath.split key).head? ≠ some "" := by decide +kernel
  have behind : ∀ key ∈ keys, ["pods"] <+: KeyPath.split key ∧ KeyPath.split key ≠ ["pods"] := by
    decide +kernel
  have reached : objectsAt ["pods"] document ≠ [] := List.cons_ne_nil _ _
  refine ⟨branches, named, behind, reached, ?_⟩
  rw [(flatten_eq_map_objectsAt branches named behind reached).1]
  rfl

end Document

end Tabular
