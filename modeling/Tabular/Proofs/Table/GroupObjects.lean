import Tabular.Proofs.Document.FlatObjects
import Tabular.Proofs.Table.Unnesting

/-!
# Names of nested objects

Where the names of a nested document are derived from the labels, each object of a group has the
label of its level and the name of the list below it. At the last level the two always differ. At
the other levels the name of the list is the next label with an `s`, which can be the label itself,
and then the list takes the place of the key.
-/

namespace Tabular

theorem Json.get?_ofMembers_last (members : List (String × Json)) (last : String × Json) :
    (ofMembers (members ++ [last])).get? last.1 = some last.2 := by
  rw [ofMembers, get?, Document.member?, Keyed.find?_sorted, List.reverse_append]
  simp

namespace Nesting

variable {labels : List String} {levels : Nat}

/-- The name of the list below the objects of a level. -/
def childName (labels : List String) (levels level : Nat) : String :=
  if level + 1 = levels then (labels[level]?.getD "") ++ "-group"
  else (labels[level + 1]?.getD "") ++ "s"

/-- The objects of the groups at a level: those in the lists below the objects of the level above
it. -/
def groupsAt (labels : List String) (levels : Nat) : Nat → Json → List Json
  | 0, document => document.elements
  | level + 1, document =>
    (groupsAt labels levels level document).flatMap fun object =>
      ((object.get? (childName labels levels level)).map Json.elements).getD []

/-- A label, and the name of the list below it if its column is a level. -/
def ownNames (labels : List String) (levels : Nat) : String × Nat → List String
  | (label, column) =>
    if column + 1 = levels then [label, label ++ "-group"]
    else if column < levels then [label, (labels[column + 1]?.getD "") ++ "s"]
    else [label]

theorem deriveNames_eq {keyCount : Nat} (nested : 0 < levels) (bounded : levels ≤ keyCount)
    (labels : List String) :
    deriveNames labels levels keyCount =
      .ok ((labels.zipIdx.map (ownNames labels levels)).flatten) := by
  rw [deriveNames, if_neg (Nat.ne_of_gt nested), if_neg (Nat.not_lt.mpr bounded)]
  rfl

theorem ownNames_eq {label : String} {level : Nat} (above : level < levels)
    (known : labels[level]? = some label) :
    ownNames labels levels (label, level) = [label, childName labels levels level] := by
  rw [ownNames, childName, known]
  by_cases last : level + 1 = levels
  · rw [if_pos last, if_pos last, Option.getD_some]
  · rw [if_neg last, if_neg last, if_pos above]

theorem drop_flatten_ownNames {level : Nat} (inside : level ≤ levels)
    (named : levels ≤ labels.length) :
    ((labels.zipIdx.map (ownNames labels levels)).flatten).drop (2 * level) =
      ((labels.zipIdx.drop level).map (ownNames labels levels)).flatten := by
  induction level with
  | zero => rfl
  | succ level ih =>
    have here : level < labels.zipIdx.length := by
      rw [List.length_zipIdx]
      omega
    have known : labels[level]? = some labels[level] := List.getElem?_eq_getElem (by omega)
    have pair : labels.zipIdx[level] = (labels[level], level) := by simp
    rw [Nat.mul_succ, ← List.drop_drop, ih (by omega), List.drop_eq_getElem_cons here, pair,
      List.map_cons, List.flatten_cons, ownNames_eq (by omega) known]
    rfl

theorem getElem?_flatten_ownNames {level : Nat} (above : level < levels)
    (named : levels ≤ labels.length) :
    ((labels.zipIdx.map (ownNames labels levels)).flatten)[2 * level]? = labels[level]? ∧
      ((labels.zipIdx.map (ownNames labels levels)).flatten)[2 * level + 1]? =
        some (childName labels levels level) := by
  have here : level < labels.zipIdx.length := by
    rw [List.length_zipIdx]
    omega
  have known : labels[level]? = some labels[level] := List.getElem?_eq_getElem (by omega)
  have pair : labels.zipIdx[level] = (labels[level], level) := by simp
  have behind := drop_flatten_ownNames (Nat.le_of_lt above) named
  rw [List.drop_eq_getElem_cons here, pair, List.map_cons, List.flatten_cons,
    ownNames_eq above known] at behind
  constructor
  · rw [← Nat.add_zero (2 * level), ← List.getElem?_drop, behind, known]
    rfl
  · rw [← List.getElem?_drop, behind]
    rfl

/-- A list of groups has the label itself as its name if that is the next label with an `s`. The
name of the last list is longer than the label. -/
theorem childName_eq_iff {level : Nat} {label : String} (above : level < levels)
    (named : levels ≤ labels.length) (known : labels[level]? = some label) :
    childName labels levels level = label ↔
      level + 1 < levels ∧ ∃ next, labels[level + 1]? = some next ∧ next ++ "s" = label := by
  rw [childName, known]
  by_cases last : level + 1 = levels
  · rw [if_pos last, Option.getD_some]
    constructor
    · intro same
      have longer := congrArg String.length same
      have added : "-group".length = 6 := rfl
      rw [String.length_append] at longer
      omega
    · rintro ⟨further, -⟩
      omega
  · have further : level + 1 < levels := by omega
    rw [if_neg last, List.getElem?_eq_getElem (Nat.lt_of_lt_of_le further named), Option.getD_some]
    constructor
    · intro same
      exact ⟨further, _, rfl, same⟩
    · rintro ⟨-, next, here, same⟩
      cases here
      exact same

/-- The object of a group: under a name the text that its rows have in the column of a level, and
under another name the document of these rows. -/
def groupObject (names : List String) (more level : Nat) (key : String) (group : List Row) : Json :=
  Json.ofMembers [(names[2 * level]?.getD "", .string key),
    (names[2 * level + 1]?.getD "", documentFrom names more (level + 1) group)]

structure IsGroup (rows : List Row) (level : Nat) (key : String) (group : List Row) : Prop where
  filled : group ≠ []
  sublist : group.Sublist rows
  same : ∀ row ∈ group, keyAt level row = key

theorem mem_elements_documentFrom {names : List String} {more level : Nat} {rows : List Row}
    {object : Json} (member : object ∈ (documentFrom names (more + 1) level rows).elements) :
    ∃ key group, IsGroup rows level key group ∧
      object = groupObject names more level key group := by
  rw [documentFrom, nest_eq_array, bucketsAt_eq_map, List.map_map, Json.elements] at member
  obtain ⟨key, known, rfl⟩ := List.mem_map.mp member
  obtain ⟨row, here, rfl⟩ := List.mem_map.mp (List.mem_eraseDups.mp known)
  refine ⟨_, _, ⟨?_, List.filter_sublist, ?_⟩, rfl⟩
  · exact List.ne_nil_of_mem (List.mem_filter.mpr ⟨here, decide_eq_true rfl⟩)
  · intro other member
    exact of_decide_eq_true (List.mem_filter.mp member).2

theorem elements_documentFrom_ne_nil {rows : List Row} (filled : rows ≠ []) (names : List String)
    (more level : Nat) : (documentFrom names more level rows).elements ≠ [] := by
  obtain ⟨first, rest, rfl⟩ := List.exists_cons_of_ne_nil filled
  cases more with
  | zero => exact List.cons_ne_nil _ _
  | succ more =>
    rw [documentFrom, nest_eq_array, bucketsAt_eq_map, Json.elements, List.map_cons,
      List.eraseDups_cons]
    exact List.cons_ne_nil _ _

theorem get?_groupObject_children (names : List String) (more level : Nat) (key : String)
    (group : List Row) :
    (groupObject names more level key group).get? (names[2 * level + 1]?.getD "") =
      some (documentFrom names more (level + 1) group) :=
  Json.get?_ofMembers_last [(names[2 * level]?.getD "", .string key)]
    (names[2 * level + 1]?.getD "", documentFrom names more (level + 1) group)

/-- The object has both members, with the text of the rows of the group as its key, and the document
of these rows below. -/
structure HoldsGroup (names : List String) (more level : Nat) (key : String) (group : List Row)
    (object : Json) : Prop where
  members : object.members.length = 2
  key : object.get? (names[2 * level]?.getD "") = some (.string key)
  children : object.get? (names[2 * level + 1]?.getD "") =
    some (documentFrom names more (level + 1) group)

/-- Under one name the key is lost. -/
theorem length_members_groupObject_iff {names : List String} {more level : Nat} {key : String}
    {group : List Row} :
    (groupObject names more level key group).members.length = 2 ↔
      names[2 * level]?.getD "" ≠ names[2 * level + 1]?.getD "" := by
  have sorted := @Keyed.length_sorted_eq_iff _ _ _ _ _ _
    [(names[2 * level]?.getD "", Json.string key),
      (names[2 * level + 1]?.getD "", documentFrom names more (level + 1) group)]
  rw [groupObject, Json.ofMembers, Json.members]
  simpa using sorted

theorem holdsGroup_groupObject {names : List String} {more level : Nat} {key : String}
    {group : List Row} (apart : names[2 * level]?.getD "" ≠ names[2 * level + 1]?.getD "") :
    HoldsGroup names more level key group (groupObject names more level key group) := by
  refine ⟨length_members_groupObject_iff.mpr apart, ?_,
    get?_groupObject_children names more level key group⟩
  have distinct : ([(names[2 * level]?.getD "", Json.string key),
      (names[2 * level + 1]?.getD "", documentFrom names more (level + 1) group)].map
        Prod.fst).Nodup := by
    simpa using apart
  exact Json.get?_ofMembers distinct List.mem_cons_self

section

variable {names : List String} {rows : List Row}
  (children : ∀ level < levels, names[2 * level + 1]? = some (childName labels levels level))
include children

theorem elements_below {level : Nat} (above : level + 1 < levels) (key : String)
    (group : List Row) :
    (((groupObject names (levels - (level + 1)) level key group).get?
        (childName labels levels level)).map Json.elements).getD [] =
      (documentFrom names (levels - (level + 2) + 1) (level + 1) group).elements := by
  have below := get?_groupObject_children names (levels - (level + 1)) level key group
  have more : levels - (level + 1) = levels - (level + 2) + 1 := by omega
  rw [children level (by omega), Option.getD_some] at below
  rw [below, Option.map_some, Option.getD_some, more]

theorem mem_groupsAt {level : Nat} (above : level < levels) {object : Json}
    (member : object ∈ groupsAt labels levels level (documentFrom names levels 0 rows)) :
    ∃ key group, IsGroup rows level key group ∧
      object = groupObject names (levels - (level + 1)) level key group := by
  induction level generalizing object with
  | zero =>
    obtain ⟨more, rfl⟩ := Nat.exists_eq_add_one.mpr above
    exact mem_elements_documentFrom member
  | succ level ih =>
    obtain ⟨parent, known, below⟩ := List.mem_flatMap.mp member
    obtain ⟨outer, rowsOfParent, isGroup, rfl⟩ := ih (by omega) known
    rw [elements_below children above] at below
    obtain ⟨key, group, inner, rfl⟩ := mem_elements_documentFrom below
    exact ⟨key, group, ⟨inner.filled, inner.sublist.trans isGroup.sublist, inner.same⟩, rfl⟩

theorem groupsAt_ne_nil {level : Nat} (above : level < levels) (filled : rows ≠ []) :
    groupsAt labels levels level (documentFrom names levels 0 rows) ≠ [] := by
  induction level with
  | zero => exact elements_documentFrom_ne_nil filled names levels 0
  | succ level ih =>
    obtain ⟨parent, more, opened⟩ := List.exists_cons_of_ne_nil (ih (by omega))
    have known : parent ∈ groupsAt labels levels level (documentFrom names levels 0 rows) :=
      opened ▸ List.mem_cons_self
    obtain ⟨key, group, isGroup, rfl⟩ := mem_groupsAt children (by omega) known
    obtain ⟨object, others, inside⟩ := List.exists_cons_of_ne_nil
      (elements_documentFrom_ne_nil isGroup.filled names (levels - (level + 2) + 1) (level + 1))
    apply List.ne_nil_of_mem (a := object)
    refine List.mem_flatMap.mpr ⟨_, known, ?_⟩
    rw [elements_below children above, inside]
    exact List.mem_cons_self

end

theorem document_of_derived {rows : List Row} {keyCount : Nat} (filled : rows ≠ [])
    (wide : ∀ row ∈ rows, row.length = labels.length) (nested : 0 < levels)
    (bounded : levels ≤ keyCount) :
    Nesting.document labels rows false levels keyCount =
      .ok (documentFrom ((labels.zipIdx.map (ownNames labels levels)).flatten) levels 0 rows) := by
  obtain ⟨first, rest, rfl⟩ := List.exists_cons_of_ne_nil filled
  have names : positionalNames labels ((first :: rest).foldl (fun n row => max n row.length) 0) =
      labels := by
    apply positionalNames_of_le
    apply (Layout.foldl_max_le_iff List.length).mpr
    refine ⟨Nat.zero_le _, ?_⟩
    intro row member
    exact Nat.le_of_eq (wide row member)
  have derived := deriveNames_eq nested bounded labels
  rw [Nesting.document, if_neg Bool.false_ne_true]
  simp only [names, derived, documentOf_eq_documentFrom]
  rfl

/-- In a nested document with derived names, every object of a group has two members, its key under
the label of its level and the document of its rows under the name of the list below. The one
exception are the levels at which the label is the next label with an `s`: there the list has the
name of the key, and the keys are lost. -/
theorem document_holds_groups_iff {rows : List Row} {keyCount : Nat} (filled : rows ≠ [])
    (wide : ∀ row ∈ rows, row.length = labels.length) (nested : 0 < levels)
    (bounded : levels ≤ keyCount) (keyed : keyCount ≤ labels.length) :
    ∃ names document, deriveNames labels levels keyCount = .ok names ∧
      Nesting.document labels rows false levels keyCount = .ok document ∧
      ∀ level < levels,
        names[2 * level]? = labels[level]? ∧
        names[2 * level + 1]? = some (childName labels levels level) ∧
        groupsAt labels levels level document ≠ [] ∧
        ((∀ object ∈ groupsAt labels levels level document, ∃ key group,
            IsGroup rows level key group ∧
              HoldsGroup names (levels - (level + 1)) level key group object) ↔
          ∀ next, level + 1 < levels → labels[level + 1]? = some next →
            labels[level]? ≠ some (next ++ "s")) := by
  have named : levels ≤ labels.length := Nat.le_trans bounded keyed
  refine ⟨_, _, deriveNames_eq nested bounded labels,
    document_of_derived filled wide nested bounded, ?_⟩
  have children : ∀ level < levels,
      ((labels.zipIdx.map (ownNames labels levels)).flatten)[2 * level + 1]? =
        some (childName labels levels level) :=
    fun level above => (getElem?_flatten_ownNames above named).2
  intro level above
  obtain ⟨own, child⟩ := getElem?_flatten_ownNames above named
  have known : labels[level]? = some labels[level] := List.getElem?_eq_getElem (by omega)
  refine ⟨own, child, groupsAt_ne_nil children above filled, ?_⟩
  have clash : (∀ next, level + 1 < levels → labels[level + 1]? = some next →
      labels[level]? ≠ some (next ++ "s")) ↔ childName labels levels level ≠ labels[level] := by
    rw [Ne, childName_eq_iff above named known, known]
    constructor
    · rintro apart ⟨further, next, here, same⟩
      exact apart next further here (congrArg some same.symm)
    · intro apart next further here same
      exact apart ⟨further, next, here, (Option.some.inj same).symm⟩
  rw [clash]
  constructor
  · intro holds same
    obtain ⟨object, more, opened⟩ :=
      List.exists_cons_of_ne_nil (groupsAt_ne_nil children above filled)
    have member : object ∈ groupsAt labels levels level _ := opened ▸ List.mem_cons_self
    obtain ⟨key, group, -, rfl⟩ := mem_groupsAt children above member
    obtain ⟨otherKey, other, -, held⟩ := holds _ member
    apply length_members_groupObject_iff.mp held.members
    rw [own, child, known, same]
  · intro apart object member
    obtain ⟨key, group, isGroup, rfl⟩ := mem_groupsAt children above member
    refine ⟨key, group, isGroup, holdsGroup_groupObject ?_⟩
    rw [own, child, known]
    exact Ne.symm apart

/-- Labels that end in `s`, one of them the label before it with another letter behind. -/
theorem document_holds_groups_iff_plural :
    let labels := ["name", "names", "s", "n"]
    let rows : List Row := [[.text "a", .int 1, .text "x", .int 5],
      [.text "b", .text "1", .text "x", .int 6], [.text "a", .text "1", .text "", .int 7]]
    rows ≠ [] ∧ (∀ row ∈ rows, row.length = labels.length) ∧ 0 < 3 ∧ 3 ≤ 3 ∧ 3 ≤ labels.length ∧
    ∃ names document, deriveNames labels 3 3 = .ok names ∧
      Nesting.document labels rows false 3 3 = .ok document ∧
      ∀ level < 3,
        names[2 * level]? = labels[level]? ∧
        names[2 * level + 1]? = some (childName labels 3 level) ∧
        groupsAt labels 3 level document ≠ [] ∧
        ((∀ object ∈ groupsAt labels 3 level document, ∃ key group,
            IsGroup rows level key group ∧
              HoldsGroup names (3 - (level + 1)) level key group object) ↔
          ∀ next, level + 1 < 3 → labels[level + 1]? = some next →
            labels[level]? ≠ some (next ++ "s")) := by
  intro labels rows
  have filled : rows ≠ [] := List.cons_ne_nil _ _
  have wide : ∀ row ∈ rows, row.length = labels.length := by decide
  exact ⟨filled, wide, by decide, by decide, by decide,
    document_holds_groups_iff filled wide (by decide) (by decide) (by decide)⟩

/-- The one object for `pods` has only the list of the objects for `pod`, and not its key. -/
theorem document_loses_key :
    let labels := ["pods", "pod", "n"]
    let rows : List Row := [[.text "a", .text "b", .text "1"]]
    let document : Json := .array [.object [("pods", .array [.object [("pod", .string "b"),
      ("pod-group", .array [.object [("n", .string "1")]])]])]]
    labels.Nodup ∧ (∀ row ∈ rows, row.length = labels.length) ∧
    Nesting.document labels rows false 2 2 = .ok document ∧
    (groupsAt labels 2 0 document).map (·.members.length) = [1] ∧
    (groupsAt labels 2 1 document).map (·.members.length) = [2] := by
  refine ⟨by decide, by decide, rfl, rfl, rfl⟩

end Nesting

end Tabular
