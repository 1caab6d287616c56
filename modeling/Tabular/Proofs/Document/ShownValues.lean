import Tabular.Proofs.Decimal.Digits
import Tabular.Proofs.Document.Grouping
import Tabular.Proofs.Text.Pieces

/-!
# Requested values are shown

What a document holds at a requested path is seen in some row, unless the path leads no further than
a grouping point that the document reaches: the rows are then made of the objects behind that point,
and what stands at it or above it is in none of them.
-/

namespace Tabular

namespace Decimal

theorem pointed_ne_nil (digits : List Char) (places : Nat) : pointed digits places ≠ [] := by
  simp [pointed]

theorem writeScaled_ne_nil (style : Style) (n : Scaled) : style.writeScaled n ≠ [] := by
  simp only [Style.writeScaled]
  split
  · split
    · simp [natChars_ne_nil]
    · exact pointed_ne_nil _ _
  · simp

theorem twoPlaces_ne_empty (x : Float) : twoPlaces x ≠ "" := by
  unfold twoPlaces
  cases parts x with
  | nan => decide
  | infinite negative => cases negative <;> decide
  | finite negative significand exponent =>
    cases negative with
    | true => simp
    | false =>
      simp only [Bool.false_eq_true, if_false, ne_eq, String.ofList_eq_empty_iff]
      split
      · exact natChars_ne_nil _
      · exact pointed_ne_nil _ _

end Decimal

namespace Json

/-- Only `null` and the empty text leave a cell empty. -/
def isVisible : Json → Bool
  | null => false
  | string s => s != ""
  | _ => true

theorem toList_write_ne_nil (x : Float) : (floatStyle.write x).toList ≠ [] := by
  unfold Decimal.Style.write
  cases Decimal.parts x with
  | nan => decide
  | infinite negative => cases negative <;> decide
  | finite negative significand exponent =>
    cases negative with
    | true => simp
    | false =>
      simp only [Bool.false_eq_true, if_false, String.toList_ofList]
      split
      · exact List.cons_ne_nil _ _
      · exact Decimal.writeScaled_ne_nil _ _

theorem chars_ne_nil (value : Json) : value.chars ≠ [] := by
  cases value with
  | null => decide
  | bool b => cases b <;> decide
  | int n =>
    rw [chars]
    exact Decimal.intChars_ne_nil n
  | float x =>
    rw [chars]
    exact toList_write_ne_nil x
  | string s => simp [chars, quoted]
  | array items => cases items <;> simp [chars]
  | object members => cases members <;> simp [chars]

theorem compact_ne_empty (value : Json) : value.compact ≠ "" := by
  simp [compact, chars_ne_nil]

theorem plainText_ne_empty {value : Json} (visible : value.isVisible) : value.plainText ≠ "" := by
  cases value with
  | null => cases visible
  | string s => exact bne_iff_ne.mp visible
  | _ => exact compact_ne_empty _

end Json

theorem Cell.render_ofJson_ne_empty {value : Json} (visible : value.isVisible) :
    (ofJson value).render ≠ "" := by
  cases value with
  | null => cases visible
  | string s => exact bne_iff_ne.mp visible
  | bool b => cases b <;> decide
  | float x => exact Decimal.twoPlaces_ne_empty x
  | array | object => exact Json.compact_ne_empty _
  | int n =>
    rw [ofJson]
    split
    · rename_i w _
      exact mt String.ofList_eq_empty_iff.mp (Decimal.intChars_ne_nil w.toInt)
    · exact Decimal.twoPlaces_ne_empty _

theorem TextSet.joined_ne_empty {set : TextSet} {text : String} (member : text ∈ set.toList)
    (filled : text ≠ "") (joiner : String) : set.joined joiner ≠ "" := by
  intro nothing
  obtain ⟨c, cs, chars⟩ := List.exists_cons_of_ne_nil (mt String.toList_eq_nil_iff.mp filled)
  have inside : c ∈ (set.joined joiner).toList := by
    rw [joined, String.toList_intercalate]
    apply Text.mem_intercalate_of_mem _ (List.mem_map_of_mem member)
    rw [chars]
    exact List.mem_cons_self
  rw [nothing] at inside
  cases inside

namespace Document

theorem render_collapse_ne_empty {values : List Json} {value : Json} (member : value ∈ values)
    (visible : value.isVisible) : (collapse values).render ≠ "" := by
  match values with
  | [] => cases member
  | [single] =>
    obtain rfl := List.mem_singleton.mp member
    exact Cell.render_ofJson_ne_empty visible
  | first :: second :: more =>
    rw [collapse.eq_3 _ (by simp) (by simp)]
    split
    · have text : value.plainText ∈
          (TextSet.ofList ((first :: second :: more).map Json.plainText)).toList :=
        TextSet.mem_ofList.mpr (List.mem_map_of_mem member)
      exact TextSet.joined_ne_empty text (Json.plainText_ne_empty visible) ","
    · exact Json.compact_ne_empty _

end Document

namespace KeyTree

inductive Spelled : KeyTree → Prop
  | node {children : List (String × KeyTree)} {requested : Bool} {path : String}
      (paths : ∀ name child, (name, child) ∈ children → child.path = KeyPath.join path name)
      (below : ∀ name child, (name, child) ∈ children → Spelled child) :
      Spelled ⟨children, requested, path⟩

theorem spelled_empty (path : String) : Spelled (empty path) :=
  .node (by simp) (by simp)

theorem path_insert (names : List String) (tree : KeyTree) :
    (tree.insert names).path = tree.path := by
  cases names <;> rfl

theorem Spelled.insert {tree : KeyTree} (spelled : Spelled tree) (names : List String) :
    Spelled (tree.insert names) := by
  induction names generalizing tree with
  | nil =>
    cases spelled with
    | node paths below => exact .node paths below
  | cons name names ih =>
    cases spelled with
    | node paths below =>
      constructor
      · intro other child member
        rcases mem_children_insert member with known | ⟨rfl, old, rfl, rfl | known⟩
        · exact paths other child known
        · exact path_insert names _
        · rw [path_insert]
          exact paths _ old known
      · intro other child member
        rcases mem_children_insert member with known | ⟨rfl, old, rfl, rfl | known⟩
        · exact below other child known
        · exact ih (spelled_empty _)
        · exact ih (below _ old known)

theorem spelled_ofKeys (keys : List String) : Spelled (ofKeys keys) := by
  unfold ofKeys
  induction keys using List.reverseRecOn with
  | nil => exact spelled_empty ""
  | append_singleton keys key ih =>
    rw [List.foldl_append]
    exact ih.insert _

theorem path_ofKeys (keys : List String) : (ofKeys keys).path = "" := by
  unfold ofKeys
  induction keys using List.reverseRecOn with
  | nil => rfl
  | append_singleton keys key ih =>
    rw [List.foldl_append]
    exact (path_insert _ _).trans ih

end KeyTree

namespace Document

open KeyTree

theorem exists_item_of_mem_foundIn {name : String} {names : List String}
    {members : List (String × Json)} {value : Json}
    (held : value ∈ foundIn (name :: names) (.object members)) :
    ∃ item ∈ (member? name members).elim [] Json.items, value ∈ foundIn names item := by
  rw [foundIn] at held
  cases found : member? name members with
  | none =>
    rw [found] at held
    cases held
  | some inner =>
    rw [found, Option.elim_some, found_eq_flatMap] at held
    exact List.mem_flatMap.mp held

theorem mem_childFindings_of_mem {members : List (String × Json)}
    {children : List (String × KeyTree)} {name : String} {child : KeyTree}
    (known : (name, child) ∈ children) {item : Json}
    (among : item ∈ (member? name members).elim [] Json.items) {finding : String × Json}
    (inside : finding ∈ itemFindings child item) : finding ∈ childFindings members children := by
  obtain ⟨front, back, rfl⟩ := List.append_of_mem known
  rw [childFindings_append, childFindings]
  apply List.mem_append_right
  apply List.mem_append_left
  exact List.mem_flatMap.mpr ⟨item, among, inside⟩

/-- Each value that an item holds at an asked path is among the findings, at the written path. -/
theorem mem_itemFindings {tree : KeyTree} (spelled : Spelled tree) {names : List String}
    (asks : Asks names tree) {item value : Json} (held : value ∈ foundIn names item) :
    (names.foldl KeyPath.join tree.path, value) ∈ itemFindings tree item := by
  induction asks generalizing item with
  | @here children path =>
    obtain rfl := List.mem_singleton.mp held
    obtain ⟨members, -, -, findings⟩ | ⟨-, findings⟩ :=
      itemFindings_cases children true path value
    · rw [findings]
      exact List.mem_append_right _ (List.mem_singleton.mpr rfl)
    · rw [findings]
      exact List.mem_singleton.mpr rfl
  | @inside name names child children requested path member further ih =>
    cases spelled with
    | node paths below =>
      cases item with
      | object members =>
        obtain ⟨item, among, held⟩ := exists_item_of_mem_foundIn held
        have inner := ih (below name child member) held
        rw [paths name child member] at inner
        rcases itemFindings_cases children requested path (.object members) with
          ⟨_, same, -, findings⟩ | ⟨none, -⟩
        · cases same
          rw [findings]
          exact List.mem_append_left _ (mem_childFindings_of_mem member among inner)
        · rw [none members rfl] at member
          cases member
      | _ => cases held

/-- What one item adds to what is gathered above the grouping point. -/
def gatherItem (child : KeyTree) (item : Json) : Gathered :=
  match item, child.children with
  | .object inner, _ :: _ =>
    (gather inner child).append ⟨if child.requested then [(child.path, item)] else [], []⟩
  | _, _ => ⟨[(child.path, item)], []⟩

theorem gather_single (members : List (String × Json)) (name : String) (child : KeyTree)
    (requested : Bool) (path : String) :
    gather members ⟨[(name, child)], requested, path⟩ =
      .join (((member? name members).elim [] Json.items).map (gatherItem child)) := by
  rw [gather]
  rfl

theorem gatherItem_cases (child : KeyTree) (item : Json) :
    (∃ inner, item = .object inner ∧ child.children ≠ [] ∧
      gatherItem child item = (gather inner child).append
        ⟨if child.requested then [(child.path, item)] else [], []⟩) ∨
    ((∀ inner, item = .object inner → child.children = []) ∧
      gatherItem child item = ⟨[(child.path, item)], []⟩) := by
  obtain ⟨children, requested, path⟩ := child
  cases children with
  | nil => exact .inr ⟨fun _ _ => rfl, by cases item <;> rfl⟩
  | cons first rest =>
    cases item with
    | object inner => exact .inl ⟨inner, rfl, List.cons_ne_nil _ _, rfl⟩
    | _ => exact .inr ⟨fun _ same => Json.noConfusion same, rfl⟩

theorem loose_join (parts : List Gathered) :
    (Gathered.join parts).loose = parts.flatMap Gathered.loose := by
  induction parts with
  | nil => rfl
  | cons part parts ih =>
    rw [List.flatMap_cons, ← ih]
    rfl

/-- The value at the names behind a node is in a group, or it is loose and the names lead no further
than to the grouping point. -/
def Gathered.Holds (gathered : Gathered) (node : KeyTree) (names : List String) (value : Json) :
    Prop :=
  (∃ group ∈ gathered.groups, (names.foldl KeyPath.join node.path, value) ∈ group) ∨
    (names.foldl KeyPath.join node.path, value) ∈ gathered.loose ∧
      ∀ before, node.branching? = some before → names <+: before

theorem Gathered.Holds.append {first : Gathered} {node : KeyTree} {names : List String}
    {value : Json} (holds : first.Holds node names value) (second : Gathered) :
    (first.append second).Holds node names value := by
  rcases holds with ⟨group, known, member⟩ | ⟨member, short⟩
  · exact .inl ⟨group, List.mem_append_left _ known, member⟩
  · exact .inr ⟨List.mem_append_left _ member, short⟩

section

variable {node : KeyTree} {name : String} {names : List String} {members : List (String × Json)}
  {value : Json}

theorem holds_gather (spelled : Spelled node) (asks : Asks (name :: names) node)
    (inner : ∀ child item, Spelled child → Asks names child → value ∈ foundIn names item →
      (gatherItem child item).Holds child names value)
    (held : value ∈ foundIn (name :: names) (.object members)) :
    (gather members node).Holds node (name :: names) value := by
  obtain ⟨item, among, held⟩ := exists_item_of_mem_foundIn held
  cases asks with
  | @inside _ _ child children requested path member further =>
    cases spelled with
    | node paths below =>
      match children with
      | [] => cases member
      | first :: second :: rest =>
        have found := mem_itemFindings (below name child member) further held
        rw [paths name child member] at found
        exact .inl ⟨_, List.mem_singleton.mpr rfl, mem_childFindings_of_mem member among found⟩
      | [only] =>
        obtain rfl := List.mem_singleton.mp member
        rcases inner child item (below name child member) further held with
          ⟨group, known, found⟩ | ⟨found, short⟩
        · rw [paths name child member] at found
          left
          refine ⟨group, ?_, found⟩
          rw [gather_single, groups_join, List.flatMap_map]
          exact List.mem_flatMap.mpr ⟨item, among, known⟩
        · rw [paths name child member] at found
          right
          constructor
          · rw [gather_single, loose_join, List.flatMap_map]
            exact List.mem_flatMap.mpr ⟨item, among, found⟩
          · intro before branches
            obtain ⟨later, further, rfl⟩ := Option.map_eq_some_iff.mp branches
            exact List.cons_prefix_cons.mpr ⟨rfl, short later further⟩

theorem holds_gatherItem {child : KeyTree} (spelled : Spelled child) (asks : Asks names child)
    {item : Json} (held : value ∈ foundIn names item) :
    (gatherItem child item).Holds child names value := by
  induction names generalizing child item with
  | nil =>
    obtain rfl := List.mem_singleton.mp held
    right
    refine ⟨?_, fun before _ => List.nil_prefix⟩
    cases asks with
    | @here children path =>
      unfold gatherItem
      split
      · exact List.mem_append_right _ (List.mem_singleton.mpr rfl)
      · exact List.mem_singleton.mpr rfl
  | cons name names ih =>
    cases item with
    | object inner =>
      have whole := holds_gather spelled asks (fun child item spelled asks => ih spelled asks) held
      cases asks with
      | @inside _ _ grandchild children requested path member further =>
        obtain ⟨first, rest, rfl⟩ := List.exists_cons_of_ne_nil (List.ne_nil_of_mem member)
        exact whole.append _
    | _ => cases held

end

theorem exists_objectsIn_of_mem_groups {node : KeyTree} {members : List (String × Json)}
    {group : Findings} (known : group ∈ (gather members node).groups) :
    ∃ names, node.branching? = some names ∧ objectsIn names (.object members) ≠ [] := by
  induction node using KeyTree.branching?.induct generalizing members group with
  | case1 requested path => cases known
  | case2 name child requested path ih =>
    rw [gather_single, groups_join, List.flatMap_map] at known
    obtain ⟨item, among, known⟩ := List.mem_flatMap.mp known
    unfold gatherItem at known
    split at known
    · rename_i inner _ _ _
      obtain ⟨names, branches, reached⟩ := ih (by simpa [Gathered.append] using known)
      refine ⟨name :: names, by rw [branching?, branches, Option.map_some], ?_⟩
      rw [objectsIn_cons]
      intro nothing
      exact reached (List.flatMap_eq_nil_iff.mp nothing _ among)
    · cases known
  | case3 => exact ⟨[], rfl, List.cons_ne_nil _ _⟩

variable {keys : List String} {key : String} {column : Nat} {members : List (String × Json)}

theorem mem_valuesAt {findings : Findings} {path : String} {value : Json}
    (found : (path, value) ∈ findings) : value ∈ findings.valuesAt path :=
  List.mem_map.mpr ⟨_, List.mem_filter.mpr ⟨found, beq_self_eq_true path⟩, rfl⟩

theorem rowOf_shows {findings : Findings} {value : Json} (asked : keys[column]? = some key)
    (found : (KeyPath.normalize key, value) ∈ findings) (visible : value.isVisible) :
    ∃ cell, (rowOf (keys.map KeyPath.normalize) findings)[column]? = some cell ∧
      cell.render ≠ "" := by
  refine ⟨collapse (findings.valuesAt (KeyPath.normalize key)), ?_, ?_⟩
  · rw [rowOf, List.getElem?_map, List.getElem?_map, asked]
    rfl
  · exact render_collapse_ne_empty (mem_valuesAt found) visible

/-- Without groups the values on the way are shown, for a single key in a row of their own. -/
theorem flatten_shows_loose {value : Json} (asked : keys[column]? = some key)
    (ungrouped : (gather members (ofKeys keys)).groups.isEmpty = true)
    (found : (KeyPath.normalize key, value) ∈ (gather members (ofKeys keys)).loose)
    (visible : value.isVisible) :
    ∃ row ∈ flatten (ofKeys keys) keys (.object members),
      ∃ cell, row[column]? = some cell ∧ cell.render ≠ "" := by
  simp only [flatten, ungrouped, if_true]
  cases keys with
  | nil => cases asked
  | cons first more =>
    cases more with
    | nil =>
      cases column with
      | succ column => cases asked
      | zero =>
        cases asked
        exact ⟨_, List.mem_map_of_mem (mem_valuesAt found), _, rfl,
          Cell.render_ofJson_ne_empty visible⟩
    | cons second more =>
      have filled : (gather members (ofKeys (first :: second :: more))).loose.isEmpty = false :=
        List.isEmpty_eq_false_iff.mpr (List.ne_nil_of_mem found)
      simp only [List.map_cons, filled, Bool.false_eq_true, if_false]
      exact ⟨_, List.mem_singleton.mpr rfl, rowOf_shows asked found visible⟩

theorem flatten_shows_grouped {value : Json} {group : Findings} (asked : keys[column]? = some key)
    (known : group ∈ (gather members (ofKeys keys)).groups)
    (found : (KeyPath.normalize key, value) ∈ group) (visible : value.isVisible) :
    ∃ row ∈ flatten (ofKeys keys) keys (.object members),
      ∃ cell, row[column]? = some cell ∧ cell.render ≠ "" := by
  have grouped : (gather members (ofKeys keys)).groups.isEmpty = false :=
    List.isEmpty_eq_false_iff.mpr (List.ne_nil_of_mem known)
  simp only [flatten, grouped, Bool.false_eq_true, if_false]
  exact ⟨_, List.mem_map_of_mem known, rowOf_shows asked found visible⟩

theorem groups_isEmpty {node : KeyTree}
    (missing : ∀ names, node.branching? = some names → objectsIn names (.object members) = []) :
    (gather members node).groups.isEmpty = true := by
  rw [List.isEmpty_iff, List.eq_nil_iff_forall_not_mem]
  intro group known
  obtain ⟨names, branches, reached⟩ := exists_objectsIn_of_mem_groups known
  exact reached (missing names branches)

theorem flatten_single_of_ungrouped {tree : KeyTree}
    (ungrouped : (gather members tree).groups.isEmpty = true) (key : String) :
    flatten tree [key] (.object members) =
      ((gather members tree).loose.valuesAt (KeyPath.normalize key)).map
        fun value => [Cell.ofJson value] := by
  simp only [flatten, ungrouped, if_true, List.map_cons, List.map_nil]

theorem flatten_several_of_ungrouped {tree : KeyTree}
    (ungrouped : (gather members tree).groups.isEmpty = true) (several : keys.length ≠ 1) :
    flatten tree keys (.object members) =
      if (gather members tree).loose.isEmpty then []
      else [rowOf (keys.map KeyPath.normalize) (gather members tree).loose] := by
  simp only [flatten, ungrouped, if_true]
  cases keys with
  | nil => rfl
  | cons first more =>
    cases more with
    | nil => exact absurd rfl several
    | cons second more => rfl

/-- A document shows what it holds at a requested path: a value other than `null` and the empty text
makes a cell of the column of its path, unless the path leads no further than to a grouping point at
which some object stands. -/
theorem flatten_shows {value : Json} (asked : keys[column]? = some key)
    (held : value ∈ found (KeyPath.split key) (.object members)) (visible : value.isVisible)
    (behind : ∀ names, (ofKeys keys).branching? = some names →
      objectsAt names (.object members) ≠ [] → ¬KeyPath.split key <+: names) :
    ∃ row ∈ flatten (ofKeys keys) keys (.object members),
      ∃ cell, row[column]? = some cell ∧ cell.render ≠ "" := by
  have spelled := spelled_ofKeys keys
  have asks := asks_ofKeys (List.mem_of_getElem? asked)
  have written : (KeyPath.split key).foldl KeyPath.join (ofKeys keys).path =
      KeyPath.normalize key := by
    rw [path_ofKeys]
    rfl
  have holds : (gather members (ofKeys keys)).Holds (ofKeys keys) (KeyPath.split key) value := by
    obtain ⟨name, names, cut⟩ := List.exists_cons_of_ne_nil (KeyPath.split_ne_nil key)
    rw [found_object, cut] at held
    rw [cut] at asks ⊢
    exact holds_gather spelled asks
      (fun child item spelled asks held => holds_gatherItem spelled asks held) held
  unfold Gathered.Holds at holds
  rw [written] at holds
  rcases holds with ⟨group, known, found⟩ | ⟨found, short⟩
  · exact flatten_shows_grouped asked known found visible
  · refine flatten_shows_loose asked (groups_isEmpty ?_) found visible
    intro names branches
    by_contra reached
    refine behind names branches ?_ (short names branches)
    rwa [objectsAt, found_object]

/-- The rows of the objects behind the grouping point have nothing for the paths that lead to it. -/
theorem flatten_hides {names : List String} (branches : (ofKeys keys).branching? = some names)
    (named : ∀ key ∈ keys, (KeyPath.split key).head? ≠ some "")
    (reached : objectsAt names (.object members) ≠ []) (asked : keys[column]? = some key)
    (leads : KeyPath.split key <+: names) :
    ∀ row ∈ flatten (ofKeys keys) keys (.object members), row[column]? = some (.text "") := by
  obtain ⟨node, stands, -, groups⟩ := exists_groups_eq branches (standsAt_ofKeys named)
  have grouped : ((objectsIn names (.object members)).map (groupOf node)).isEmpty = false := by
    rw [objectsAt, found_object] at reached
    simpa [objectsIn] using reached
  simp only [flatten, groups, grouped, Bool.false_eq_true, if_false, List.map_map]
  intro row member
  obtain ⟨object, known, rfl⟩ := List.mem_map.mp member
  have nothing : (groupOf node object).valuesAt (KeyPath.normalize key) = [] := by
    cases object with
    | object inner =>
      cases stands with
      | node _ _ below =>
        apply valuesAt_childFindings_eq_nil below
        intro name child _ deeper
        have read : KeyPath.split (KeyPath.normalize key) = KeyPath.split key :=
          KeyPath.split_ofNames (KeyPath.writable_split (named key (List.mem_of_getElem? asked)))
        rw [read, List.nil_append] at deeper
        have longer := (deeper.trans leads).length_le
        rw [List.length_append, List.length_singleton] at longer
        omega
    | _ => rfl
  rw [Function.comp_apply, rowOf, List.getElem?_map, List.getElem?_map, asked]
  simp only [Option.map_some, nothing, collapse]

/-- A text among the items of a list, behind a grouping point at which a number stands too. -/
theorem flatten_shows_stray :
    let keys := ["pods.parts", "pods.parts.n", "pods..x"]
    let members : List (String × Json) := [("pods", .array [.int 7,
      .object [("", .object [("x", .bool false)]), ("parts", .array [.null, .string "p"])]])]
    keys[0]? = some "pods.parts" ∧
    .string "p" ∈ found (KeyPath.split "pods.parts") (.object members) ∧
    (∀ names, (ofKeys keys).branching? = some names →
      objectsAt names (.object members) ≠ [] → ¬KeyPath.split "pods.parts" <+: names) ∧
    ∃ row ∈ flatten (ofKeys keys) keys (.object members),
      ∃ cell, row[0]? = some cell ∧ cell.render ≠ "" := by
  intro keys members
  have held : .string "p" ∈ found (KeyPath.split "pods.parts") (.object members) := by
    have values : found (KeyPath.split "pods.parts") (.object members) = [.null, .string "p"] := by
      rfl
    rw [values]
    exact List.mem_cons_of_mem _ List.mem_cons_self
  have behind : ∀ names, (ofKeys keys).branching? = some names →
      objectsAt names (.object members) ≠ [] → ¬KeyPath.split "pods.parts" <+: names := by
    intro names branches _
    have first : (ofKeys keys).branching? = some ["pods"] := by decide +kernel
    rw [first, Option.some.injEq] at branches
    subst branches
    decide +kernel
  exact ⟨rfl, held, behind, flatten_shows rfl held rfl behind⟩

/-- The requested object at the grouping point is found, but no row shows it. -/
theorem flatten_hides_pods :
    let keys := ["pods", "pods.name", "pods.ns"]
    let pod : Json := .object [("name", .string "a"), ("ns", .string "x")]
    let members : List (String × Json) := [("pods", .array [pod])]
    keys[0]? = some "pods" ∧ found (KeyPath.split "pods") (.object members) = [pod] ∧
    pod.isVisible = true ∧
    ∀ row ∈ flatten (ofKeys keys) keys (.object members), row[0]? = some (.text "") := by
  intro keys pod members
  have branches : (ofKeys keys).branching? = some ["pods"] := by decide +kernel
  have named : ∀ key ∈ keys, (KeyPath.split key).head? ≠ some "" := by decide +kernel
  have reached : objectsAt ["pods"] (.object members) ≠ [] := List.cons_ne_nil _ _
  have leads : KeyPath.split "pods" <+: ["pods"] := by decide +kernel
  exact ⟨rfl, by rfl, rfl, flatten_hides branches named reached rfl leads⟩

end Document

end Tabular
