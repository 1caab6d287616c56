import Tabular.Document.Lookup
import Tabular.Proofs.Document.KeyPath
import Tabular.Proofs.Keyed
import Tabular.Proofs.Text.ByteOrder

/-!
# Listed key paths

The paths that are listed for some documents are the written paths of their members, each one once
and in the order of their bytes. Such a path leads back to a member when the names can be read back
from it. It does not when the first of several names is empty, since the path does not show this
name, or when a name in front of the last ends in a backslash, since the point behind it then
belongs to the name.
-/

namespace Tabular.Document

/-- Following the names member by member leads to a member. A list is entered at its objects. -/
inductive Leads : List String → Json → Prop
  | member {name : String} {value : Json} {members : List (String × Json)}
      (stands : (name, value) ∈ members) : Leads [name] (.object members)
  | inside {name : String} {names : List String} {value : Json} {members : List (String × Json)}
      (stands : (name, value) ∈ members) (leads : Leads names value) :
      Leads (name :: names) (.object members)
  | entered {names : List String} {members : List (String × Json)} {items : List Json}
      (stands : .object members ∈ items) (leads : Leads names (.object members)) :
      Leads names (.array items)

theorem leads_object_cons_iff {names : List String} {name : String} {value : Json}
    {members : List (String × Json)} :
    Leads names (.object ((name, value) :: members)) ↔
      names = [name] ∨ (∃ more, names = name :: more ∧ Leads more value) ∨
        Leads names (.object members) := by
  constructor
  · intro leads
    cases leads with
    | member stands =>
      rcases List.mem_cons.mp stands with same | later
      · cases same
        exact .inl rfl
      · exact .inr (.inr (.member later))
    | inside stands leads =>
      rcases List.mem_cons.mp stands with same | later
      · cases same
        exact .inr (.inl ⟨_, rfl, leads⟩)
      · exact .inr (.inr (.inside later leads))
  · rintro (rfl | ⟨more, rfl, leads⟩ | leads)
    · exact .member List.mem_cons_self
    · exact .inside List.mem_cons_self leads
    · cases leads with
      | member stands => exact .member (List.mem_cons_of_mem _ stands)
      | inside stands leads => exact .inside (List.mem_cons_of_mem _ stands) leads

theorem leads_array_cons_iff {names : List String} {item : Json} {items : List Json} :
    Leads names (.array (item :: items)) ↔
      (item.isObject ∧ Leads names item) ∨ Leads names (.array items) := by
  constructor
  · intro leads
    cases leads with
    | entered stands leads =>
      rcases List.mem_cons.mp stands with rfl | later
      · exact .inl ⟨rfl, leads⟩
      · exact .inr (.entered later leads)
  · rintro (⟨object, leads⟩ | leads)
    · cases item with
      | object members => exact .entered List.mem_cons_self leads
      | _ => cases object
    · cases leads with
      | entered stands leads => exact .entered (List.mem_cons_of_mem _ stands) leads

theorem Leads.mem_names {name : String} {names : List String} {members : List (String × Json)}
    (leads : Leads (name :: names) (.object members)) : name ∈ members.map Prod.fst := by
  cases leads with
  | member stands | inside stands => exact List.mem_map_of_mem stands

mutual

theorem mem_pathsInside {listed : String} (path : String) : (value : Json) →
    (listed ∈ pathsInside path value ↔
      ∃ names, Leads names value ∧ names.foldl KeyPath.join path = listed)
  | .object members => by
    rw [pathsInside]
    exact mem_pathsOfMembers path members
  | .array items => by
    rw [pathsInside]
    exact mem_pathsOfItems path items
  | .null | .bool _ | .int _ | .float _ | .string _ => by
    rw [pathsInside]
    · refine iff_of_false List.not_mem_nil ?_
      rintro ⟨names, leads, -⟩
      cases leads
    all_goals simp

theorem mem_pathsOfMembers {listed : String} (path : String) : (members : List (String × Json)) →
    (listed ∈ pathsOfMembers path members ↔
      ∃ names, Leads names (.object members) ∧ names.foldl KeyPath.join path = listed)
  | [] => by
    refine iff_of_false List.not_mem_nil ?_
    rintro ⟨names, leads, -⟩
    cases leads with
    | member stands | inside stands => cases stands
  | (name, value) :: members => by
    have below := @mem_pathsInside listed (KeyPath.join path name) value
    have others := @mem_pathsOfMembers listed path members
    rw [pathsOfMembers, List.mem_append, List.mem_cons, below, others]
    simp only [leads_object_cons_iff]
    constructor
    · rintro ((rfl | ⟨names, leads, rfl⟩) | ⟨names, leads, rfl⟩)
      · exact ⟨[name], .inl rfl, rfl⟩
      · exact ⟨name :: names, .inr (.inl ⟨names, rfl, leads⟩), rfl⟩
      · exact ⟨names, .inr (.inr leads), rfl⟩
    · rintro ⟨names, rfl | ⟨more, rfl, leads⟩ | leads, rfl⟩
      · exact .inl (.inl rfl)
      · exact .inl (.inr ⟨more, leads, rfl⟩)
      · exact .inr ⟨names, leads, rfl⟩

theorem mem_pathsOfItems {listed : String} (path : String) : (items : List Json) →
    (listed ∈ pathsOfItems path items ↔
      ∃ names, Leads names (.array items) ∧ names.foldl KeyPath.join path = listed)
  | [] => by
    refine iff_of_false List.not_mem_nil ?_
    rintro ⟨names, leads, -⟩
    cases leads with
    | entered stands => cases stands
  | .object members :: items => by
    have here := @mem_pathsOfMembers listed path members
    have others := @mem_pathsOfItems listed path items
    rw [pathsOfItems, List.mem_append, here, others]
    simp only [leads_array_cons_iff, Json.isObject, true_and, or_and_right, exists_or]
  | .array _ :: items | .null :: items | .bool _ :: items | .int _ :: items
  | .float _ :: items | .string _ :: items => by
    have others := @mem_pathsOfItems listed path items
    rw [pathsOfItems, others]
    · simp only [leads_array_cons_iff, Json.isObject, Bool.false_eq_true, false_and, false_or]
    all_goals simp

end

theorem mem_keyPaths {listed : String} {documents : List Json} :
    listed ∈ keyPaths documents ↔
      ∃ document ∈ documents, document.isObject ∧
        ∃ names, Leads names document ∧ KeyPath.ofNames names = listed := by
  have inside (document : Json) : listed ∈ paths document ↔
      document.isObject ∧ ∃ names, Leads names document ∧ KeyPath.ofNames names = listed := by
    cases document with
    | object members =>
      simpa [paths, Json.isObject, KeyPath.ofNames] using mem_pathsOfMembers "" members
    | _ => simp [paths, Json.isObject]
  simp only [keyPaths, Keyed.mem_foldl_insertKey, List.not_mem_nil, or_false, List.mem_flatMap,
    inside]

/-- Exactly the written paths of members are listed, and a listed path leads back to a member
exactly when it is the written path of names that can be read back from it. -/
theorem keyPaths_lead_back_iff (documents : List Json) (path : String) :
    (path ∈ keyPaths documents ↔
      ∃ document ∈ documents, document.isObject ∧
        ∃ names, Leads names document ∧ KeyPath.ofNames names = path) ∧
    (path ∈ keyPaths documents →
      ((∃ document ∈ documents, Leads (KeyPath.split path) document) ↔
        ∃ document ∈ documents, ∃ names,
          Leads names document ∧ KeyPath.Writable names ∧ KeyPath.ofNames names = path)) := by
  refine ⟨mem_keyPaths, fun listed => ?_⟩
  obtain ⟨-, -, -, written, -, same⟩ := mem_keyPaths.mp listed
  have noPoint : path.toList.head? ≠ some '.' := same ▸ KeyPath.head?_ofNames written
  constructor
  · rintro ⟨document, member, leads⟩
    exact ⟨document, member, KeyPath.split path, leads,
      KeyPath.writable_split_of_head? noPoint, KeyPath.ofNames_split noPoint⟩
  · rintro ⟨document, member, names, leads, writable, rfl⟩
    refine ⟨document, member, ?_⟩
    rw [KeyPath.split_ofNames writable]
    exact leads

def exampleLabels : Json :=
  .object [("items", .array [.object [("app.name", .string "web")], .null]),
    ("meta", .object [("", .int 1)])]

theorem keyPaths_lead_back_iff_labels :
    keyPaths [exampleLabels] = ["items", "items.app\\.name", "meta", "meta."] ∧
      (∃ document ∈ [exampleLabels], Leads (KeyPath.split "items.app\\.name") document) ∧
      ∃ document ∈ [exampleLabels], Leads (KeyPath.split "meta.") document := by
  have listed : keyPaths [exampleLabels] = ["items", "items.app\\.name", "meta", "meta."] := by
    decide
  have atName : Leads ["items", "app.name"] exampleLabels :=
    .inside List.mem_cons_self (.entered List.mem_cons_self (.member List.mem_cons_self))
  have atEmpty : Leads ["meta", ""] exampleLabels :=
    .inside (List.mem_cons_of_mem _ List.mem_cons_self) (.member List.mem_cons_self)
  refine ⟨listed, ?_, ?_⟩
  · refine ((keyPaths_lead_back_iff _ _).2 ?_).mpr
      ⟨exampleLabels, List.mem_cons_self, _, atName, ?_, by decide⟩
    · simp [listed]
    · exact ⟨by decide, by decide, by decide⟩
  · refine ((keyPaths_lead_back_iff _ _).2 ?_).mpr
      ⟨exampleLabels, List.mem_cons_self, _, atEmpty, ?_, by decide⟩
    · simp [listed]
    · exact ⟨by decide, by decide, by decide⟩

/-- A member of a member without a name is listed as if it stood in the document itself, and behind
a name that ends in a backslash the point is read as a part of the name. -/
theorem keyPaths_mislead :
    (keyPaths [.object [("", .object [("a", .int 1)])]] = ["", "a"] ∧
      ¬ ∃ document ∈ [Json.object [("", .object [("a", .int 1)])]],
        Leads (KeyPath.split "a") document) ∧
    (keyPaths [.object [("a\\", .object [("b", .int 1)])]] = ["a\\", "a\\.b"] ∧
      ¬ ∃ document ∈ [Json.object [("a\\", .object [("b", .int 1)])]],
        Leads (KeyPath.split "a\\.b") document) := by
  refine ⟨⟨by decide, ?_⟩, by decide, ?_⟩
  · rintro ⟨document, member, leads⟩
    rw [List.mem_singleton] at member
    subst member
    rw [show KeyPath.split "a" = ["a"] by decide] at leads
    simpa using leads.mem_names
  · rintro ⟨document, member, leads⟩
    rw [List.mem_singleton] at member
    subst member
    rw [show KeyPath.split "a\\.b" = ["a.b"] by decide] at leads
    simpa using leads.mem_names

theorem pairwise_keyPaths (documents : List Json) :
    (keyPaths documents).Pairwise fun first second => compare first second = .lt :=
  Keyed.pairwise_foldl_insertKey List.Pairwise.nil

/-- The list of paths ascends and holds exactly the written paths of members, so it is the union of
the lists of its documents, whatever their order and however often one of them comes. -/
theorem keyPaths_sorted_and_exact (documents : List Json) :
    (keyPaths documents).Pairwise
      (fun first second => first.toUTF8.toList < second.toUTF8.toList) ∧
    (∀ path, path ∈ keyPaths documents ↔
      ∃ document ∈ documents, document.isObject ∧
        ∃ names, Leads names document ∧ KeyPath.ofNames names = path) ∧
    (∀ others : List Json, (∀ document, document ∈ others ↔ document ∈ documents) →
      keyPaths others = keyPaths documents) ∧
    ∀ path, path ∈ keyPaths documents ↔ ∃ document ∈ documents, path ∈ keyPaths [document] := by
  refine ⟨?_, fun path => mem_keyPaths, fun others same => ?_, fun path => ?_⟩
  · refine (pairwise_keyPaths documents).imp fun less => ?_
    exact Text.toList_toUTF8_lt_iff.mpr (compareOfLessAndEq_eq_lt.mp less)
  · refine Keyed.eq_of_mem_iff (pairwise_keyPaths others) (pairwise_keyPaths documents) ?_
    intro path
    simp only [mem_keyPaths, same]
  · simp only [mem_keyPaths, List.mem_singleton, exists_eq_left]

/-- Neither a repeated document nor a list in a list adds a path. -/
theorem keyPaths_sorted_and_exact_repeated :
    let node : Json := .object [("b", .array [.object [("z", .null)], .array [exampleLabels]])]
    (∀ document, document ∈ [exampleLabels, node, exampleLabels] ↔
      document ∈ [node, exampleLabels]) ∧
    keyPaths [exampleLabels, node, exampleLabels] = keyPaths [node, exampleLabels] ∧
    keyPaths [node, exampleLabels] =
      ["b", "b.z", "items", "items.app\\.name", "meta", "meta."] := by
  intro node
  have same (document : Json) : document ∈ [exampleLabels, node, exampleLabels] ↔
      document ∈ [node, exampleLabels] := by
    simp only [List.mem_cons, List.not_mem_nil, or_false]
    tauto
  exact ⟨same, (keyPaths_sorted_and_exact [node, exampleLabels]).2.2.1 _ same, by decide⟩

end Tabular.Document
