import Tabular.Proofs.Document.ShownValues

/-!
# Stray values

Above the grouping point, or on the only path if the requested paths never branch, the search for
the requested values ends at every value that is no object. Such a stray value is gathered although
nobody asks for it. Several keys then have a row for a document in which nothing is found, and a
single key has one where its written path is that of the stray value.
-/

namespace Tabular

namespace KeyTree

/-- The names that lead from a node through nodes with one child each, to the grouping point or to
the end of the only path. -/
def stem : KeyTree → List String
  | ⟨[], _, _⟩ => []
  | ⟨[(name, child)], _, _⟩ => name :: stem child
  | ⟨_ :: _ :: _, _, _⟩ => []

/-- Below the node every node without children is the end of a requested path. -/
inductive Ended : KeyTree → Prop
  | node {children : List (String × KeyTree)} {requested : Bool} {path : String}
      (ends : ∀ name child, (name, child) ∈ children → child.children = [] → child.requested)
      (below : ∀ name child, (name, child) ∈ children → Ended child) :
      Ended ⟨children, requested, path⟩

theorem ended_empty (path : String) : Ended (empty path) :=
  .node (by simp) (by simp)

theorem requested_of_insert {names : List String} {tree : KeyTree}
    (none : (tree.insert names).children = []) : (tree.insert names).requested := by
  cases names with
  | nil => rfl
  | cons name names =>
    obtain ⟨old, member⟩ := Keyed.exists_mem_update name (empty (KeyPath.join tree.path name))
      (KeyTree.insert names) tree.children
    exact absurd none (List.ne_nil_of_mem member)

theorem Ended.insert {tree : KeyTree} (ended : Ended tree) (names : List String) :
    Ended (tree.insert names) := by
  induction names generalizing tree with
  | nil =>
    cases ended with
    | node ends below => exact .node ends below
  | cons name names ih =>
    cases ended with
    | node ends below =>
      constructor
      · intro other child member
        rcases mem_children_insert member with known | ⟨rfl, old, rfl, -⟩
        · exact ends other child known
        · exact requested_of_insert
      · intro other child member
        rcases mem_children_insert member with known | ⟨rfl, old, rfl, rfl | known⟩
        · exact below other child known
        · exact ih (ended_empty _)
        · exact ih (below _ old known)

theorem ended_ofKeys (keys : List String) : Ended (ofKeys keys) := by
  unfold ofKeys
  induction keys using List.reverseRecOn with
  | nil => exact ended_empty ""
  | append_singleton keys key ih =>
    rw [List.foldl_append]
    exact ih.insert _

theorem asks_nil_iff {node : KeyTree} : Asks [] node ↔ node.requested := by
  obtain ⟨children, requested, path⟩ := node
  constructor
  · rintro ⟨⟩
    rfl
  · rintro ⟨⟩
    exact .here

theorem asks_cons_single_iff {name first : String} {names : List String} {child : KeyTree}
    {requested : Bool} {path : String} :
    Asks (first :: names) ⟨[(name, child)], requested, path⟩ ↔ first = name ∧ Asks names child := by
  constructor
  · intro asks
    cases asks with
    | inside member further =>
      cases List.mem_singleton.mp member
      exact ⟨rfl, further⟩
  · rintro ⟨rfl, further⟩
    exact .inside List.mem_cons_self further

theorem StandsAt.readable_stem {before names : List String} {tree : KeyTree}
    (stands : StandsAt before tree) (filled : names ≠ []) (leads : names <+: tree.stem) :
    KeyPath.split (KeyPath.ofNames (before ++ names)) = before ++ names := by
  induction names generalizing before tree with
  | nil => exact absurd rfl filled
  | cons name names ih =>
    obtain ⟨children, requested, path⟩ := tree
    match children with
    | [] => cases List.prefix_nil.mp leads
    | _ :: _ :: _ => cases List.prefix_nil.mp leads
    | [(only, child)] =>
      obtain ⟨rfl, further⟩ := List.cons_prefix_cons.mp leads
      cases stands with
      | node _ _ below =>
        have inner := below name child List.mem_cons_self
        cases names with
        | nil =>
          cases inner with
          | node readable _ _ => exact readable (by simp)
        | cons next names =>
          have deeper := ih inner (List.cons_ne_nil _ _) further
          rwa [List.append_assoc, List.singleton_append] at deeper

end KeyTree

namespace Document

open KeyTree

/-- The value is met behind the names of a stem, where the search ends: it is no object, or it is
asked for. -/
structure Met (node : KeyTree) (names : List String) (item value : Json) : Prop where
  leads : names <+: node.stem
  held : value ∈ foundIn names item
  asked : value.isObject → Asks names node

theorem mem_foundIn_cons_iff {name : String} {names : List String}
    {members : List (String × Json)} {value : Json} :
    value ∈ foundIn (name :: names) (.object members) ↔
      ∃ item ∈ (member? name members).elim [] Json.items, value ∈ foundIn names item := by
  refine ⟨exists_item_of_mem_foundIn, ?_⟩
  rintro ⟨item, among, held⟩
  rw [foundIn]
  cases stands : member? name members with
  | none =>
    rw [stands] at among
    cases among
  | some inner =>
    rw [stands] at among
    rw [Option.elim_some, found_eq_flatMap]
    exact List.mem_flatMap.mpr ⟨item, among, held⟩

theorem met_cons_iff {name first : String} {names : List String} {child : KeyTree}
    {requested : Bool} {path : String} {members : List (String × Json)} {value : Json} :
    Met ⟨[(name, child)], requested, path⟩ (first :: names) (.object members) value ↔
      first = name ∧ ∃ item ∈ (member? name members).elim [] Json.items,
        Met child names item value := by
  constructor
  · rintro ⟨leads, held, asked⟩
    obtain ⟨rfl, further⟩ := List.cons_prefix_cons.mp leads
    obtain ⟨item, among, inside⟩ := mem_foundIn_cons_iff.mp held
    exact ⟨rfl, item, among, further, inside,
      fun object => (asks_cons_single_iff.mp (asked object)).2⟩
  · rintro ⟨rfl, item, among, further, inside, asked⟩
    exact ⟨List.cons_prefix_cons.mpr ⟨rfl, further⟩,
      mem_foundIn_cons_iff.mpr ⟨item, among, inside⟩,
      fun object => asks_cons_single_iff.mpr ⟨rfl, asked object⟩⟩

theorem mem_loose_gatherItem_iff {child : KeyTree} {value : Json} {path : String} (item : Json)
    (ends : child.children = [] → child.requested)
    (inner : ∀ members, (path, value) ∈ (gather members child).loose ↔
      ∃ names, names ≠ [] ∧ Met child names (.object members) value ∧
        names.foldl KeyPath.join child.path = path) :
    (path, value) ∈ (gatherItem child item).loose ↔
      ∃ names, Met child names item value ∧ names.foldl KeyPath.join child.path = path := by
  rcases gatherItem_cases child item with ⟨members, rfl, -, gathered⟩ | ⟨noObject, gathered⟩
  · rw [gathered, Gathered.append, List.mem_append, inner]
    constructor
    · rintro (⟨names, -, met, written⟩ | here)
      · exact ⟨names, met, written⟩
      · split at here
        · rename_i requested
          cases List.mem_singleton.mp here
          exact ⟨[], ⟨List.nil_prefix, List.mem_singleton.mpr rfl,
            fun _ => asks_nil_iff.mpr requested⟩, rfl⟩
        · cases here
    · rintro ⟨names, met, written⟩
      cases names with
      | nil =>
        obtain rfl := List.mem_singleton.mp met.held
        rw [if_pos (asks_nil_iff.mp (met.asked rfl))]
        exact .inr (List.mem_singleton.mpr (by rw [← written]; rfl))
      | cons name names => exact .inl ⟨_, List.cons_ne_nil _ _, met, written⟩
  · rw [gathered, List.mem_singleton, Prod.mk.injEq]
    constructor
    · rintro ⟨rfl, rfl⟩
      refine ⟨[], ⟨List.nil_prefix, List.mem_singleton.mpr rfl, fun object => ?_⟩, rfl⟩
      cases value with
      | object members => exact asks_nil_iff.mpr (ends (noObject members rfl))
      | _ => cases object
    · rintro ⟨names, ⟨leads, held, -⟩, written⟩
      cases names with
      | nil => exact ⟨written.symm, List.mem_singleton.mp held⟩
      | cons name names =>
        cases item with
        | object members =>
          obtain ⟨children, requested, path⟩ := child
          obtain rfl : children = [] := noObject members rfl
          cases List.prefix_nil.mp leads
        | _ => cases held

/-- Outside the groups stands what is met on the stem, at its written path. -/
theorem mem_loose_gather_iff {node : KeyTree} (spelled : Spelled node) (ended : Ended node)
    {members : List (String × Json)} {path : String} {value : Json} :
    (path, value) ∈ (gather members node).loose ↔
      ∃ names, names ≠ [] ∧ Met node names (.object members) value ∧
        names.foldl KeyPath.join node.path = path := by
  induction node using KeyTree.branching?.induct generalizing members with
  | case1 requested written =>
    refine iff_of_false List.not_mem_nil ?_
    rintro ⟨names, filled, met, -⟩
    exact filled (List.prefix_nil.mp met.leads)
  | case2 name child requested written ih =>
    -- The stem goes on through the only child, whose items are searched each on its own.
    obtain ⟨paths, below⟩ := spelled
    obtain ⟨ends, inner⟩ := ended
    have spelt := paths name child List.mem_cons_self
    have items (item : Json) := mem_loose_gatherItem_iff item
      (ends name child List.mem_cons_self) fun members =>
        ih (below name child List.mem_cons_self) (inner name child List.mem_cons_self)
    rw [gather_single, loose_join, List.flatMap_map, List.mem_flatMap]
    simp only [items, spelt]
    constructor
    · rintro ⟨item, among, names, met, same⟩
      exact ⟨name :: names, List.cons_ne_nil _ _, met_cons_iff.mpr ⟨rfl, item, among, met⟩, same⟩
    · rintro ⟨names, filled, met, same⟩
      cases names with
      | nil => exact absurd rfl filled
      | cons first names =>
        obtain ⟨rfl, item, among, met⟩ := met_cons_iff.mp met
        exact ⟨item, among, names, met, same⟩
  | case3 =>
    refine iff_of_false List.not_mem_nil ?_
    rintro ⟨names, filled, met, -⟩
    exact filled (List.prefix_nil.mp met.leads)

/-- A value that is no object stands behind the names, on the way to the grouping point or at it, or
on the only path. -/
def Stray (keys names : List String) (document : Json) : Prop :=
  names ≠ [] ∧ names <+: (ofKeys keys).stem ∧
    ∃ value ∈ found names document, value.isObject = false

section

variable {keys : List String} {members : List (String × Json)}

/-- Where nothing is found at the requested paths, stray values alone are gathered. -/
theorem exists_mem_loose_iff
    (absent : ∀ key ∈ keys, found (KeyPath.split key) (.object members) = []) {path : String} :
    (∃ value, (path, value) ∈ (gather members (ofKeys keys)).loose) ↔
      ∃ names, Stray keys names (.object members) ∧ KeyPath.ofNames names = path := by
  simp only [mem_loose_gather_iff (spelled_ofKeys keys) (ended_ofKeys keys), path_ofKeys]
  constructor
  · rintro ⟨value, names, filled, met, written⟩
    have held := met.held
    rw [← found_object] at held
    refine ⟨names, ⟨filled, met.leads, value, held, ?_⟩, written⟩
    rw [Bool.eq_false_iff]
    intro object
    obtain ⟨key, known, rfl⟩ := asks_ofKeys_iff.mp (met.asked object)
    rw [absent key known] at held
    cases held
  · rintro ⟨names, ⟨filled, leads, value, held, noObject⟩, written⟩
    rw [found_object] at held
    refine ⟨value, names, filled, ⟨leads, held, fun object => ?_⟩, written⟩
    rw [noObject] at object
    cases object

theorem valuesAt_eq_nil_iff {findings : Findings} {path : String} :
    findings.valuesAt path = [] ↔ ¬∃ value, (path, value) ∈ findings := by
  constructor
  · rintro nothing ⟨value, member⟩
    have held := mem_valuesAt member
    rw [nothing] at held
    cases held
  · intro nothing
    exact Findings.valuesAt_eq_nil fun other value member same => nothing ⟨value, same ▸ member⟩

/-- A stray value never stands at the written path of a key whose first name is not empty. -/
theorem valuesAt_loose_eq_nil
    (absent : ∀ key ∈ keys, found (KeyPath.split key) (.object members) = [])
    (named : ∀ key ∈ keys, (KeyPath.split key).head? ≠ some "") {key : String}
    (known : key ∈ keys) :
    (gather members (ofKeys keys)).loose.valuesAt (KeyPath.normalize key) = [] := by
  rw [valuesAt_eq_nil_iff, exists_mem_loose_iff absent]
  rintro ⟨names, ⟨filled, leads, other, stands, -⟩, written⟩
  -- Names on the stem are read back from their written path, so they are those of the key.
  have same : names = KeyPath.split key := by
    have readable := (standsAt_ofKeys named).readable_stem filled leads
    rw [List.nil_append, written, KeyPath.normalize,
      KeyPath.split_ofNames (KeyPath.writable_split (named key known))] at readable
    exact readable.symm
  rw [same, absent key known] at stands
  cases stands

theorem flatten_single_eq_nil_iff {key : String}
    (ungrouped : (gather members (ofKeys [key])).groups.isEmpty = true)
    (absent : ∀ other ∈ [key], found (KeyPath.split other) (.object members) = []) :
    flatten (ofKeys [key]) [key] (.object members) = [] ↔
      ∀ names, Stray [key] names (.object members) →
        KeyPath.ofNames names ≠ KeyPath.normalize key := by
  rw [flatten_single_of_ungrouped ungrouped, List.map_eq_nil_iff, valuesAt_eq_nil_iff,
    exists_mem_loose_iff absent]
  simp only [not_exists, not_and, ne_eq]

theorem flatten_several_eq_nil_iff
    (ungrouped : (gather members (ofKeys keys)).groups.isEmpty = true) (several : keys.length ≠ 1)
    (absent : ∀ key ∈ keys, found (KeyPath.split key) (.object members) = []) :
    flatten (ofKeys keys) keys (.object members) = [] ↔
      ∀ names, ¬Stray keys names (.object members) := by
  have empty_iff : (gather members (ofKeys keys)).loose = [] ↔
      ∀ names, ¬Stray keys names (.object members) := by
    rw [List.eq_nil_iff_forall_not_mem]
    constructor
    · intro nothing names stray
      obtain ⟨value, member⟩ := (exists_mem_loose_iff absent).mpr ⟨names, stray, rfl⟩
      exact nothing _ member
    · rintro none ⟨path, value⟩ member
      obtain ⟨names, stray, -⟩ := (exists_mem_loose_iff absent).mp ⟨value, member⟩
      exact none names stray
  rw [flatten_several_of_ungrouped ungrouped several, ← empty_iff]
  split
  · rename_i empty
    exact iff_of_true rfl (List.isEmpty_iff.mp empty)
  · rename_i filled
    exact iff_of_false (List.cons_ne_nil _ _) (mt List.isEmpty_iff.mpr filled)

/-- Where no object stands at the grouping point and nothing is found at the requested paths, a
document has no row unless a stray value stands in it, at the written path of the key if it is a
single one. Keys whose first names are not empty have a row then only if they are several, and it
holds nothing but empty texts. -/
theorem flatten_eq_nil_iff
    (missed : ∀ names, (ofKeys keys).branching? = some names →
      objectsAt names (.object members) = [])
    (absent : ∀ key ∈ keys, found (KeyPath.split key) (.object members) = []) :
    (flatten (ofKeys keys) keys (.object members) = [] ↔
      ∀ names, Stray keys names (.object members) →
        ∃ key, keys = [key] ∧ KeyPath.ofNames names ≠ KeyPath.normalize key) ∧
    ((∀ key ∈ keys, (KeyPath.split key).head? ≠ some "") →
      ∀ row ∈ flatten (ofKeys keys) keys (.object members),
        keys.length ≠ 1 ∧ row = keys.map fun _ => Cell.text "") := by
  have ungrouped : (gather members (ofKeys keys)).groups.isEmpty = true := by
    refine groups_isEmpty fun names branches => ?_
    have nothing := missed names branches
    rwa [objectsAt, found_object] at nothing
  by_cases single : keys.length = 1
  · obtain ⟨key, rfl⟩ := List.length_eq_one_iff.mp single
    constructor
    · rw [flatten_single_eq_nil_iff ungrouped absent]
      simp only [List.cons.injEq, and_true, exists_eq_left']
    · intro named row member
      rw [flatten_single_of_ungrouped ungrouped,
        valuesAt_loose_eq_nil absent named List.mem_cons_self] at member
      cases member
  · constructor
    · rw [flatten_several_eq_nil_iff ungrouped single absent]
      refine forall_congr' fun names => imp_congr_right fun _ => ?_
      refine iff_of_false id ?_
      rintro ⟨key, rfl, -⟩
      exact single rfl
    · intro named row member
      refine ⟨single, ?_⟩
      rw [flatten_several_of_ungrouped ungrouped single] at member
      split at member
      · cases member
      · rw [List.mem_singleton.mp member, rowOf, List.map_map]
        refine List.map_congr_left fun key known => ?_
        rw [Function.comp_apply, valuesAt_loose_eq_nil absent named known]
        rfl

end

/-- A list of objects leads on, but none of them has the name of the grouping point. -/
theorem flatten_eq_nil_iff_parts :
    let keys := ["pods.spec.a", "pods.spec.b"]
    let members : List (String × Json) :=
      [("pods", .array [.object [("name", .string "p")], .object []])]
    (∀ names, (ofKeys keys).branching? = some names →
      objectsAt names (.object members) = []) ∧
    (∀ key ∈ keys, found (KeyPath.split key) (.object members) = []) ∧
    flatten (ofKeys keys) keys (.object members) = [] := by
  intro keys members
  have branches : (ofKeys keys).branching? = some ["pods", "spec"] := by decide +kernel
  have stem : (ofKeys keys).stem = ["pods", "spec"] := by decide +kernel
  have missed : ∀ names, (ofKeys keys).branching? = some names →
      objectsAt names (.object members) = [] := by
    rw [branches]
    rintro names ⟨⟩
    rfl
  have absent : ∀ key ∈ keys, found (KeyPath.split key) (.object members) = [] := by
    refine List.forall_mem_cons.mpr ⟨by rfl, List.forall_mem_singleton.mpr (by rfl)⟩
  refine ⟨missed, absent, (flatten_eq_nil_iff missed absent).1.mpr ?_⟩
  rintro names ⟨filled, leads, value, held, noObject⟩
  rw [stem] at leads
  match names with
  | [] => exact absurd rfl filled
  | [name] =>
    obtain ⟨rfl, -⟩ := List.cons_prefix_cons.mp leads
    have objects : ∀ value ∈ found ["pods"] (.object members), value.isObject = true :=
      List.forall_mem_cons.mpr ⟨rfl, List.forall_mem_singleton.mpr rfl⟩
    rw [objects value held] at noObject
    cases noObject
  | [name, next] =>
    obtain ⟨rfl, further⟩ := List.cons_prefix_cons.mp leads
    obtain ⟨rfl, -⟩ := List.cons_prefix_cons.mp further
    cases held
  | _ :: _ :: _ :: _ =>
    have short := leads.length_le
    simp at short

/-- A number on the way to two requested names makes a row of empty texts. A value without a name
is taken for the value at a path of two empty names. -/
theorem flatten_rows_of_stray :
    ((∀ names, (ofKeys ["a.b", "a.c"]).branching? = some names →
        objectsAt names (.object [("a", .int 5)]) = []) ∧
      (∀ key ∈ ["a.b", "a.c"], found (KeyPath.split key) (.object [("a", .int 5)]) = []) ∧
      flatten (ofKeys ["a.b", "a.c"]) ["a.b", "a.c"] (.object [("a", .int 5)]) =
        [[.text "", .text ""]]) ∧
    (∀ names, (ofKeys ["."]).branching? = some names →
      objectsAt names (.object [("", .string "x")]) = []) ∧
    (∀ key ∈ ["."], found (KeyPath.split key) (.object [("", .string "x")]) = []) ∧
    flatten (ofKeys ["."]) ["."] (.object [("", .string "x")]) = [[.text "x"]] := by
  have branches : (ofKeys ["a.b", "a.c"]).branching? = some ["a"] := by decide +kernel
  have straight : (ofKeys ["."]).branching? = none := by decide +kernel
  rw [branches, straight]
  refine ⟨⟨?_, ?_, by rfl⟩, ?_, ?_, by rfl⟩
  · rintro names ⟨⟩
    rfl
  · exact List.forall_mem_cons.mpr ⟨by rfl, List.forall_mem_singleton.mpr (by rfl)⟩
  · rintro names ⟨⟩
  · exact List.forall_mem_singleton.mpr (by rfl)

end Document

end Tabular
