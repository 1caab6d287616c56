import Tabular.Proofs.Document.ShownValues

/-!
# A single key

A condition reads the value at a key path of its own, and a single requested key goes through the
tree of the requested paths. Where no list stands on the way both read the same value, and where
the path breaks off the condition reads an empty text and the document has no row.
-/

namespace Tabular.Document

open KeyTree

/-- The value behind the names, through objects only. -/
def valueAt? : List String → Json → Option Json
  | [], value => some value
  | name :: names, .object members => (member? name members).bind (valueAt? names)
  | _ :: _, _ => none

/-- A list stands on the way, in front of the end of the names. -/
def meetsList : List String → Json → Bool
  | [], _ => false
  | _ :: _, .array _ => true
  | name :: names, .object members => (member? name members).elim false (meetsList names)
  | _ :: _, _ => false

theorem lookup_object (name : String) (names : List String) (members : List (String × Json)) :
    lookup (name :: names) (.object members) =
      ((member? name members).map (lookup names)).getD (.string "") :=
  rfl

theorem lookup_and_found_of_reached {names : List String} {value last : Json}
    (reached : valueAt? names value = some last) :
    lookup names value = last ∧ found names value = last.items := by
  induction names generalizing value with
  | nil =>
    cases reached
    exact ⟨rfl, rfl⟩
  | cons name names ih =>
    cases value with
    | object members =>
      obtain ⟨inner, stands, further⟩ := Option.bind_eq_some_iff.mp reached
      rw [lookup_object, found_object, foundIn, stands]
      exact ih further
    | _ => cases reached

theorem lookup_and_found_of_missing {names : List String} {value : Json}
    (unlisted : meetsList names value = false) (missing : valueAt? names value = none) :
    lookup names value = .string "" ∧ found names value = [] := by
  induction names generalizing value with
  | nil => cases missing
  | cons name names ih =>
    cases value with
    | object members =>
      rw [lookup_object, found_object, foundIn]
      cases stands : member? name members with
      | none => exact ⟨rfl, rfl⟩
      | some inner =>
        rw [valueAt?, stands] at missing
        rw [meetsList, stands] at unlisted
        exact ih unlisted missing
    | array items => cases unlisted
    | _ => exact ⟨rfl, rfl⟩

theorem branching?_insert_empty (names : List String) (path : String) :
    ((empty path).insert names).branching? = none := by
  induction names generalizing path with
  | nil => rfl
  | cons name names ih =>
    have below := ih (KeyPath.join path name)
    simp only [KeyTree.insert, empty, Keyed.update, branching?, Option.map_eq_none_iff]
    exact below

/-- Where the paths never branch, nothing is kept apart for the objects of a grouping point. -/
theorem loose_gather_of_unbranched {node : KeyTree} (unbranched : node.branching? = none)
    (members : List (String × Json)) :
    (gather members node).loose = childFindings members node.children := by
  induction node using KeyTree.branching?.induct generalizing members with
  | case1 requested path => rfl
  | case2 name child requested path ih =>
    have single := ih (Option.map_eq_none_iff.mp unbranched)
    rw [gather_single, loose_join, List.flatMap_map, childFindings, childFindings, List.append_nil]
    congr 1
    funext item
    obtain ⟨children, asked, written⟩ := child
    rcases gatherItem_cases ⟨children, asked, written⟩ item with
      ⟨inner, rfl, further, gathered⟩ | ⟨noObject, gathered⟩
    · obtain ⟨first, rest, rfl⟩ := List.exists_cons_of_ne_nil further
      rw [gathered, Gathered.append, single, itemFindings]
    · rw [gathered]
      cases item with
      | object inner =>
        obtain rfl := noObject inner rfl
        rfl
      | _ => rfl
  | case3 => cases unbranched

theorem flatten_ofKeys_singleton {key : String} (named : (KeyPath.split key).head? ≠ some "")
    (members : List (String × Json)) :
    flatten (ofKeys [key]) [key] (.object members) =
      (found (KeyPath.split key) (.object members)).map fun value => [Cell.ofJson value] := by
  have unbranched : (ofKeys [key]).branching? = none := branching?_insert_empty _ _
  have ungrouped : (gather members (ofKeys [key])).groups.isEmpty = true :=
    groups_isEmpty fun names branches => by rw [unbranched] at branches; cases branches
  have stands : StandsAt [] (ofKeys [key]) := standsAt_ofKeys (by simpa using named)
  have asks : Asks (KeyPath.split key) (ofKeys [key]) := asks_ofKeys List.mem_cons_self
  have readable := KeyPath.split_ofNames (KeyPath.writable_split named)
  obtain ⟨name, more, names⟩ := List.exists_cons_of_ne_nil (KeyPath.split_ne_nil key)
  have values : (gather members (ofKeys [key])).loose.valuesAt (KeyPath.normalize key) =
      found (KeyPath.split key) (.object members) := by
    rw [loose_gather_of_unbranched unbranched, KeyPath.normalize]
    rw [names] at asks readable ⊢
    exact valuesAt_groupOf stands asks readable members
  rw [flatten_single_of_ungrouped ungrouped, values]

/-- At a path on which no list stands in front of the end, `lookup` and the rows of the single key
give the same value, and where the path breaks off they give an empty text and no row. -/
theorem flatten_single_eq_lookup {key : String} {members : List (String × Json)}
    (named : (KeyPath.split key).head? ≠ some "")
    (unlisted : meetsList (KeyPath.split key) (.object members) = false) :
    (∀ value, valueAt? (KeyPath.split key) (.object members) = some value →
      (∀ items, value ≠ .array items) →
      lookup (KeyPath.split key) (.object members) = value ∧
        flatten (ofKeys [key]) [key] (.object members) = [[Cell.ofJson value]]) ∧
    (valueAt? (KeyPath.split key) (.object members) = none →
      lookup (KeyPath.split key) (.object members) = .string "" ∧
        flatten (ofKeys [key]) [key] (.object members) = []) := by
  rw [flatten_ofKeys_singleton named]
  constructor
  · intro value reached noList
    obtain ⟨read, values⟩ := lookup_and_found_of_reached reached
    have single : value.items = [value] := by
      cases value with
      | array items => exact absurd rfl (noList items)
      | _ => rfl
    rw [values, single]
    exact ⟨read, rfl⟩
  · intro missing
    obtain ⟨read, nothing⟩ := lookup_and_found_of_missing unlisted missing
    rw [nothing]
    exact ⟨read, rfl⟩

/-- A name with a point in it is reached, and a path that leads on from its value breaks off. -/
theorem flatten_single_eq_lookup_label :
    let members : List (String × Json) :=
      [("list", .array [.int 1]), ("meta", .object [("app.io", .bool true)])]
    (KeyPath.split "meta.app\\.io").head? ≠ some "" ∧
    meetsList (KeyPath.split "meta.app\\.io") (.object members) = false ∧
    valueAt? (KeyPath.split "meta.app\\.io") (.object members) = some (.bool true) ∧
    lookup (KeyPath.split "meta.app\\.io") (.object members) = .bool true ∧
    flatten (ofKeys ["meta.app\\.io"]) ["meta.app\\.io"] (.object members) = [[.text "true"]] ∧
    valueAt? (KeyPath.split "meta.app\\.io.") (.object members) = none ∧
    lookup (KeyPath.split "meta.app\\.io.") (.object members) = .string "" ∧
    flatten (ofKeys ["meta.app\\.io."]) ["meta.app\\.io."] (.object members) = [] := by
  intro members
  have named : (KeyPath.split "meta.app\\.io").head? ≠ some "" := by decide
  have further : (KeyPath.split "meta.app\\.io.").head? ≠ some "" := by decide
  have unlisted : meetsList (KeyPath.split "meta.app\\.io") (.object members) = false := by rfl
  have broken : meetsList (KeyPath.split "meta.app\\.io.") (.object members) = false := by rfl
  have reached : valueAt? (KeyPath.split "meta.app\\.io") (.object members) =
      some (.bool true) := by rfl
  have missing : valueAt? (KeyPath.split "meta.app\\.io.") (.object members) = none := by rfl
  obtain ⟨read, row⟩ := (flatten_single_eq_lookup named unlisted).1 _ reached (by simp)
  obtain ⟨empty, none⟩ := (flatten_single_eq_lookup further broken).2 missing
  exact ⟨named, unlisted, reached, read, row, missing, empty, none⟩

end Tabular.Document
