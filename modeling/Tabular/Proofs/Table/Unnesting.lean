import Tabular.Document.Lookup
import Tabular.Proofs.Keyed
import Tabular.Table.Nesting

/-!
# Reading nested documents back

A nested document is read along its paths: the text of the key at every level, and at the end of a
path the members of the object there. With names that were given, this gives the rows from which the
document was made, each as often as it was there, and rows with the same keys in their order. The
objects in one list have different keys, in the order in which these first come in the rows.
-/

namespace Tabular

namespace Json

def elements : Json → List Json
  | array items => items
  | _ => []

def members : Json → List (String × Json)
  | object members => members
  | _ => []

def get? (value : Json) (name : String) : Option Json :=
  match value with
  | object members => Document.member? name members
  | _ => none

theorem get?_ofMembers {members : List (String × Json)} (distinct : (members.map Prod.fst).Nodup)
    {member : String × Json} (known : member ∈ members) :
    (ofMembers members).get? member.1 = some member.2 := by
  rw [ofMembers, get?, Document.member?, Keyed.find?_sorted_of_mem distinct known]
  rfl

end Json

namespace Nesting

def opened? (names : List String) (level : Nat) (object : Json) : Option (String × Json) :=
  match names[2 * level]?.bind object.get?, names[2 * level + 1]?.bind object.get? with
  | some (.string key), some below => some (key, below)
  | _, _ => none

def opened (names : List String) (level : Nat) (document : Json) : List (String × Json) :=
  document.elements.filterMap (opened? names level)

def addKey (key : String) (row : List String × List Json) : List String × List Json :=
  (key :: row.1, row.2)

/-- The rows of a document from a level on, with the number of levels that are still to come. A row
is read as the texts of its keys and the values of its other cells. -/
def unnest (names : List String) : Nat → Nat → Json → List (List String × List Json)
  | 0, level, document =>
    document.elements.map fun leaf => ([], (names.drop (2 * level)).filterMap leaf.get?)
  | levels + 1, level, document =>
    (opened names level document).flatMap fun (key, below) =>
      (unnest names levels (level + 1) below).map (addKey key)

/-- The keys of the objects that stand behind some keys. -/
def siblings (names : List String) : Nat → List String → Json → List String
  | level, [], document => (opened names level document).map (·.1)
  | level, key :: keys, document =>
    (opened names level document).flatMap fun (known, below) =>
      if known = key then siblings names (level + 1) keys below else []

/-- A row as it is read: the texts of its first cells, and the values of the others. -/
def parts (levels : Nat) (row : Row) : List String × List Json :=
  ((row.take levels).map Cell.render, (row.drop levels).map Cell.toJson)

/-- The text of a cell, by which rows come together. -/
def keyAt (column : Nat) (row : Row) : String :=
  (row[column]?.map Cell.render).getD ""

theorem bucketsAt_eq_map (column : Nat) (rows : List Row) :
    bucketsAt column rows =
      (rows.map (keyAt column)).eraseDups.map fun key =>
        (key, rows.filter (keyAt column · = key)) :=
  Keyed.foldl_update_eq_map (fun _ => []) (fun row bucket => bucket ++ [row]) id (fun _ => rfl)
    (fun _ _ _ => rfl) rows

def documentFrom (names : List String) : Nat → Nat → List Row → Json
  | 0, level, rows =>
    .array (rows.map fun row => objectOf (names.drop (2 * level)) (row.drop level))
  | levels + 1, level, rows => nest names levels level rows

theorem documentOf_eq_documentFrom (names : List String) (levels : Nat) (rows : List Row) :
    documentOf names levels rows = documentFrom names levels 0 rows := by
  cases levels <;> rfl

theorem nest_eq_array (names : List String) (levels level : Nat) (rows : List Row) :
    nest names levels level rows =
      .array ((bucketsAt level rows).map fun (key, bucket) =>
        Json.ofMembers [(names[2 * level]?.getD "", .string key),
          (names[2 * level + 1]?.getD "", documentFrom names levels (level + 1) bucket)]) := by
  cases levels <;> rfl

section

variable {names : List String} (distinct : names.Nodup)
include distinct

theorem opened_documentFrom {level : Nat} (named : 2 * level + 1 < names.length) (levels : Nat)
    (rows : List Row) :
    opened names level (documentFrom names (levels + 1) level rows) =
      (rows.map (keyAt level)).eraseDups.map fun key =>
        (key, documentFrom names levels (level + 1) (rows.filter (keyAt level · = key))) := by
  have apart : names[2 * level] ≠ names[2 * level + 1] := by
    rw [Ne, distinct.getElem_inj_iff]
    omega
  have opens (key : String) (below : Json) :
      opened? names level (Json.ofMembers [(names[2 * level]?.getD "", .string key),
        (names[2 * level + 1]?.getD "", below)]) = some (key, below) := by
    simp only [opened?, List.getElem?_eq_getElem named,
      List.getElem?_eq_getElem (Nat.lt_of_succ_lt named), Option.getD_some, Option.bind_some]
    have pair : ([(names[2 * level], Json.string key),
        (names[2 * level + 1], below)].map Prod.fst).Nodup := by simpa using apart
    rw [Json.get?_ofMembers pair (List.mem_cons_self),
      Json.get?_ofMembers pair (List.mem_cons_of_mem _ List.mem_cons_self)]
  rw [documentFrom, nest_eq_array, bucketsAt_eq_map, List.map_map, opened, Json.elements,
    List.filterMap_map]
  simp only [Function.comp_def, opens, List.filterMap_eq_map']

theorem filterMap_get?_objectOf {cells : Row} (same : names.length = cells.length) :
    names.filterMap (objectOf names cells).get? = cells.map Cell.toJson := by
  have pairs : ((List.zip names (cells.map Cell.toJson)).map Prod.fst).Nodup := by
    rw [List.map_fst_zip (by simp [same])]
    exact distinct
  calc names.filterMap (objectOf names cells).get?
      = ((List.zip names (cells.map Cell.toJson)).map Prod.fst).filterMap
          (objectOf names cells).get? := by rw [List.map_fst_zip (by simp [same])]
    _ = (List.zip names (cells.map Cell.toJson)).filterMap
          ((objectOf names cells).get? ∘ Prod.fst) := List.filterMap_map
    _ = (List.zip names (cells.map Cell.toJson)).filterMap (some ∘ Prod.snd) :=
        List.filterMap_congr fun pair member => Json.get?_ofMembers pairs member
    _ = cells.map Cell.toJson := by
        rw [List.filterMap_eq_map, List.map_snd_zip (by simp [same])]

end

theorem parts_succ {levels level : Nat} {row : Row} (inside : level < row.length) :
    parts (levels + 1) (row.drop level) =
      addKey (keyAt level row) (parts levels (row.drop (level + 1))) := by
  rw [List.drop_eq_getElem_cons inside]
  simp only [parts, keyAt, addKey, List.take_succ_cons, List.drop_succ_cons, List.map_cons,
    List.getElem?_eq_getElem inside, Option.map_some, Option.getD_some]

theorem filter_keyAt_eq_nil {column : Nat} {rows : List Row} {key : String}
    (absent : key ∉ (rows.map (keyAt column)).eraseDups) :
    rows.filter (keyAt column · = key) = [] := by
  refine List.filter_eq_nil_iff.mpr fun row member same => absent ?_
  rw [List.mem_eraseDups, List.mem_map]
  exact ⟨row, member, by simpa using same⟩

theorem flatMap_eq_ite {α : Type} {keys : List String} (distinct : keys.Nodup) {key : String}
    {items : String → List α} (others : ∀ other ∈ keys, other ≠ key → items other = []) :
    keys.flatMap items = if key ∈ keys then items key else [] := by
  induction keys with
  | nil => rfl
  | cons first keys ih =>
    obtain ⟨absent, distinct⟩ := List.nodup_cons.mp distinct
    have later := ih distinct fun other member => others other (List.mem_cons_of_mem _ member)
    rw [List.flatMap_cons, later]
    by_cases same : first = key
    · subst same
      simp [absent]
    · simp [others first List.mem_cons_self same, Ne.symm same]

theorem filter_map_addKey_nil (key : String) (rows : List (List String × List Json)) :
    (rows.map (addKey key)).filter (·.1 = []) = [] := by
  simp [addKey, List.filter_map, Function.comp_def]

theorem filter_map_addKey_cons (first key : String) (keys : List String)
    (rows : List (List String × List Json)) :
    (rows.map (addKey first)).filter (·.1 = key :: keys) =
      if first = key then (rows.filter (·.1 = keys)).map (addKey key) else [] := by
  by_cases same : first = key
  · subst same
    simp [addKey, List.filter_map, Function.comp_def]
  · simp [addKey, List.filter_map, Function.comp_def, same]

theorem filter_map_addKey (keyOf : Row → String) (partsOf : Row → List String × List Json)
    (key : String) (keys : List String) (rows : List Row) :
    (rows.map fun row => addKey (keyOf row) (partsOf row)).filter (·.1 = key :: keys) =
      (((rows.filter (keyOf · = key)).map partsOf).filter (·.1 = keys)).map (addKey key) := by
  induction rows with
  | nil => rfl
  | cons row rows ih =>
    rw [List.map_cons, List.filter_cons, ih, List.filter_cons]
    by_cases same : keyOf row = key
    · by_cases further : (partsOf row).1 = keys <;> simp [addKey, same, further]
    · simp [addKey, same]

section

variable {names : List String} {width : Nat} (distinct : names.Nodup)
include distinct

/-- The rows with some keys are read in the order in which they were nested. -/
theorem filter_unnest_documentFrom (levels level : Nat) (rows : List Row)
    (named : names.length = width + level + levels) (fits : level + levels ≤ width)
    (wide : ∀ row ∈ rows, row.length = width) (keys : List String) :
    (unnest names levels level (documentFrom names levels level rows)).filter (·.1 = keys) =
      (rows.map fun row => parts levels (row.drop level)).filter (·.1 = keys) := by
  induction levels generalizing level rows keys with
  | zero =>
    congr 1
    rw [documentFrom, unnest, Json.elements, List.map_map]
    refine List.map_congr_left fun row member => ?_
    have same : (names.drop (2 * level)).length = (row.drop level).length := by
      simp [wide row member, named]
      omega
    have sublist : (names.drop (2 * level)).Nodup := distinct.sublist (List.drop_sublist _ _)
    simp [parts, filterMap_get?_objectOf sublist same]
  | succ levels ih =>
    have spread : (rows.map fun row => parts (levels + 1) (row.drop level)) =
        rows.map fun row => addKey (keyAt level row) (parts levels (row.drop (level + 1))) := by
      refine List.map_congr_left fun row member => parts_succ ?_
      rw [wide row member]
      omega
    rw [unnest, opened_documentFrom distinct (by omega), spread, List.flatMap_map,
      List.filter_flatMap]
    cases keys with
    | nil =>
      simp only [filter_map_addKey_nil]
      simp [addKey, List.filter_map, Function.comp_def]
    | cons key keys =>
      have inner := ih (level + 1) (rows.filter (keyAt level · = key)) (by omega) (by omega)
        (fun row member => wide row (List.mem_filter.mp member).1) keys
      simp only [filter_map_addKey_cons]
      rw [flatMap_eq_ite (Keyed.nodup_eraseDups _) fun other _ apart => if_neg apart, if_pos rfl,
        inner, filter_map_addKey]
      split
      · rfl
      · rename_i absent
        have none : rows.filter (keyAt level · = key) = [] := filter_keyAt_eq_nil absent
        rw [none]
        rfl

/-- The objects behind some keys have the different keys that come next in the rows. -/
theorem siblings_documentFrom (levels level : Nat) (rows : List Row) {keys : List String}
    (named : names.length = width + level + levels) (fits : level + levels ≤ width)
    (wide : ∀ row ∈ rows, row.length = width) (above : keys.length < levels) :
    siblings names level keys (documentFrom names levels level rows) =
      ((rows.filter fun row => (parts keys.length (row.drop level)).1 = keys).map
        (keyAt (level + keys.length))).eraseDups := by
  induction keys generalizing levels level rows with
  | nil =>
    obtain ⟨levels, rfl⟩ := Nat.exists_eq_add_one.mpr above
    rw [siblings, opened_documentFrom distinct (by omega), List.map_map]
    simp [parts, Function.comp_def]
  | cons key keys ih =>
    obtain ⟨levels, rfl⟩ := Nat.exists_eq_add_one.mpr (Nat.zero_lt_of_lt above)
    have inner := ih levels (level + 1) (rows.filter (keyAt level · = key)) (by omega) (by omega)
      (fun row member => wide row (List.mem_filter.mp member).1) (by simpa using above)
    rw [siblings, opened_documentFrom distinct (by omega), List.flatMap_map,
      flatMap_eq_ite (Keyed.nodup_eraseDups _) fun other _ apart => if_neg apart]
    have selected : (rows.filter fun row =>
        (parts (key :: keys).length (row.drop level)).1 = key :: keys) =
          (rows.filter (keyAt level · = key)).filter
            fun row => (parts keys.length (row.drop (level + 1))).1 = keys := by
      rw [List.filter_filter]
      refine List.filter_congr fun row member => ?_
      have inside : level < row.length := by
        rw [wide row member]
        omega
      rw [List.length_cons, parts_succ inside]
      simp [addKey, Bool.and_comm]
    have column : level + (key :: keys).length = level + 1 + keys.length := by
      rw [List.length_cons]
      omega
    rw [if_pos rfl, selected, column, inner]
    split
    · rfl
    · rename_i absent
      rw [filter_keyAt_eq_nil absent]
      rfl

end

theorem perm_of_filter_eq {α : Type} {keyOf : α → List String} {left right : List α}
    (same : ∀ keys, left.filter (keyOf · = keys) = right.filter (keyOf · = keys)) :
    left.Perm right := by
  classical
  refine List.perm_iff_count.mpr fun item => ?_
  have kept (items : List α) :
      (items.filter (keyOf · = keyOf item)).count item = items.count item :=
    List.count_filter (by simp)
  rw [← kept, same, kept]

/-- A document that is nested under given names holds the rows and nothing is lost: read back, it
has each row as often as it was nested, and rows with the same keys in their order. The objects
that stand in one list have different keys, in the order in which the rows bring them up. -/
theorem unnest_document {labels : List String} {rows : List Row} {width depth : Nat}
    (levels keyCount : Nat) (distinct : labels.Nodup) (labelled : labels.length = width + depth)
    (fits : depth ≤ width) (nonempty : rows ≠ [])
    (wide : ∀ row ∈ rows, row.length = width) :
    ∃ document, Nesting.document labels rows true levels keyCount = .ok document ∧
      (unnest labels depth 0 document).Perm (rows.map (parts depth)) ∧
      (∀ keys, (unnest labels depth 0 document).filter (·.1 = keys) =
        (rows.map (parts depth)).filter (·.1 = keys)) ∧
      ∀ keys, keys.length < depth →
        (siblings labels 0 keys document).Nodup ∧
        siblings labels 0 keys document =
          ((rows.filter fun row => (parts keys.length row).1 = keys).map
            (keyAt keys.length)).eraseDups := by
  have built : Nesting.document labels rows true levels keyCount =
      .ok (documentFrom labels depth 0 rows) := by
    obtain ⟨first, rest, rfl⟩ := List.exists_cons_of_ne_nil nonempty
    have firstWide := wide first List.mem_cons_self
    rw [Nesting.document, if_pos rfl, if_neg (by omega), firstWide, labelled,
      Nat.add_sub_cancel_left, documentOf_eq_documentFrom]
  have filtered := filter_unnest_documentFrom distinct depth 0 rows labelled (by omega) wide
  have keyed (keys : List String) (above : keys.length < depth) :=
    siblings_documentFrom distinct depth 0 rows labelled (by omega) wide above
  simp only [List.drop_zero, Nat.zero_add] at filtered keyed
  refine ⟨documentFrom labels depth 0 rows, built, perm_of_filter_eq filtered, filtered, ?_⟩
  intro keys above
  exact ⟨keyed keys above ▸ Keyed.nodup_eraseDups _, keyed keys above⟩

/-- Keys that come back after others, and cells that differ but have the same text. -/
theorem unnest_document_interleaved :
    let labels := ["a", "bs", "b", "cs", "c"]
    let rows : List Row := [[.text "x", .int 1, .int 5], [.text "y", .int 1, .int 6],
      [.text "x", .text "1", .text "7"], [.text "x", .int 2, .int 5], [.text "x", .int 1, .int 5]]
    let document : Json := .array [
      .object [("a", .string "x"), ("bs", .array [
        .object [("b", .string "1"), ("cs", .array [
          .object [("c", .int 5)], .object [("c", .string "7")], .object [("c", .int 5)]])],
        .object [("b", .string "2"), ("cs", .array [.object [("c", .int 5)]])]])],
      .object [("a", .string "y"), ("bs", .array [
        .object [("b", .string "1"), ("cs", .array [.object [("c", .int 6)]])]])]]
    labels.Nodup ∧ labels.length = 3 + 2 ∧ 2 ≤ 3 ∧ rows ≠ [] ∧ (∀ row ∈ rows, row.length = 3) ∧
    Nesting.document labels rows true 0 0 = .ok document ∧
      (unnest labels 2 0 document).Perm [(["x", "1"], [.int 5]), (["y", "1"], [.int 6]),
        (["x", "1"], [.string "7"]), (["x", "2"], [.int 5]), (["x", "1"], [.int 5])] ∧
      (unnest labels 2 0 document).filter (·.1 = ["x", "1"]) =
        [(["x", "1"], [.int 5]), (["x", "1"], [.string "7"]), (["x", "1"], [.int 5])] ∧
      siblings labels 0 [] document = ["x", "y"] ∧
      siblings labels 0 ["x"] document = ["1", "2"] := by
  intro labels rows document
  have distinct : labels.Nodup := by decide
  have labelled : labels.length = 3 + 2 := rfl
  have wide : ∀ row ∈ rows, row.length = 3 := by simp [rows]
  have nonempty : rows ≠ [] := List.cons_ne_nil _ _
  have built : Nesting.document labels rows true 0 0 = .ok document := by
    subst labels rows document
    rfl
  obtain ⟨_, same, perm, filtered, keyed⟩ :=
    unnest_document 0 0 distinct labelled (by decide) nonempty wide
  obtain rfl := Except.ok.inj (built.symm.trans same)
  exact ⟨distinct, rfl, by decide, nonempty, wide, built, perm, (filtered ["x", "1"]).trans rfl,
    (keyed [] (by decide)).2.trans rfl, (keyed ["x"] (by decide)).2.trans rfl⟩

end Nesting

end Tabular
