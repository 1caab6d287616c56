import Tabular.Proofs.Table.GroupObjects

/-!
# Depth of nested documents

With names that were given, the number of names beyond the width of the first row decides how deep
the objects of the rows stand. So two orders of the same rows make equally deep documents when their
first rows have the same width. For rows of simple values there is no other such case: a narrower
row in front brings more levels, even where the names do not suffice for them.
-/

namespace Tabular

namespace Json

mutual

/-- The number of lists and objects that stand inside one another. -/
def depth : Json → Nat
  | .array items => itemsDepth items + 1
  | .object members => membersDepth members + 1
  | _ => 0

def itemsDepth : List Json → Nat
  | [] => 0
  | item :: items => max item.depth (itemsDepth items)

def membersDepth : List (String × Json) → Nat
  | [] => 0
  | (_, value) :: members => max value.depth (membersDepth members)

end

theorem depth_array_le_iff {items : List Json} {n : Nat} :
    (array items).depth ≤ n + 1 ↔ ∀ item ∈ items, item.depth ≤ n := by
  rw [depth, Nat.add_le_add_iff_right]
  induction items with
  | nil => simp [itemsDepth]
  | cons item items ih => rw [itemsDepth, Nat.max_le, ih, List.forall_mem_cons]

theorem depth_object_le_iff {members : List (String × Json)} {n : Nat} :
    (object members).depth ≤ n + 1 ↔ ∀ member ∈ members, member.2.depth ≤ n := by
  rw [depth, Nat.add_le_add_iff_right]
  induction members with
  | nil => simp [membersDepth]
  | cons member members ih => rw [membersDepth, Nat.max_le, ih, List.forall_mem_cons]

theorem depth_of_isSimple {value : Json} (simple : value.isSimple) : value.depth = 0 := by
  cases value with
  | array items | object members => cases simple
  | _ => rfl

theorem mem_of_get? {members : List (String × Json)} {name : String} {value : Json}
    (found : (object members).get? name = some value) : ∃ member ∈ members, member.2 = value := by
  obtain ⟨member, first, same⟩ := Option.map_eq_some_iff.mp found
  exact ⟨member, List.mem_of_find?_eq_some first, same⟩

end Json

namespace Nesting

variable {names : List String}

def leafOf (names : List String) (levels : Nat) (row : Row) : Json :=
  objectOf (names.drop (2 * levels)) (row.drop levels)

theorem depth_leafOf_ne_zero (names : List String) (levels : Nat) (row : Row) :
    (leafOf names levels row).depth ≠ 0 :=
  Nat.succ_ne_zero _

theorem depth_leafOf_le_one {levels : Nat} {row : Row}
    (simple : ∀ cell ∈ row, cell.toJson.isSimple) : (leafOf names levels row).depth ≤ 1 := by
  apply Json.depth_object_le_iff.mpr
  intro member known
  obtain ⟨cell, inside, same⟩ :=
    List.mem_map.mp (List.of_mem_zip (Keyed.mem_of_mem_sorted known)).2
  rw [← same, Json.depth_of_isSimple (simple cell (List.mem_of_mem_drop inside))]

theorem depth_groupObject_le_iff {more level n : Nat} {key : String} {group : List Row} :
    (groupObject names more level key group).depth ≤ n + 1 ↔
      (documentFrom names more (level + 1) group).depth ≤ n := by
  have children := get?_groupObject_children names more level key group
  rw [groupObject, Json.ofMembers] at children ⊢
  rw [Json.depth_object_le_iff]
  constructor
  · intro bounded
    obtain ⟨member, known, same⟩ := Json.mem_of_get? children
    exact same ▸ bounded member known
  · intro bounded member known
    rcases List.mem_pair.mp (Keyed.mem_of_mem_sorted known) with rfl | rfl
    · exact Nat.zero_le n
    · exact bounded

/-- Each level adds a list and an object around the objects of the rows. -/
theorem depth_documentFrom_le_iff {levels level n : Nat} {rows : List Row} :
    (documentFrom names levels level rows).depth ≤ n + 2 * levels + 1 ↔
      ∀ row ∈ rows, (leafOf names (level + levels) row).depth ≤ n := by
  induction levels generalizing level rows with
  | zero =>
    rw [documentFrom, Json.depth_array_le_iff, List.forall_mem_map]
    rfl
  | succ levels ih =>
    have groups : documentFrom names (levels + 1) level rows =
        .array ((rows.map (keyAt level)).eraseDups.map fun key =>
          groupObject names levels level key (rows.filter (keyAt level · = key))) := by
      rw [documentFrom, nest_eq_array, bucketsAt_eq_map, List.map_map]
      rfl
    have column : level + 1 + levels = level + (levels + 1) := by omega
    rw [groups, Json.depth_array_le_iff, List.forall_mem_map]
    simp only [Nat.mul_succ, ← Nat.add_assoc, depth_groupObject_le_iff, ih, column]
    constructor
    · intro bounded row member
      refine bounded (keyAt level row) ?_ row (List.mem_filter.mpr ⟨member, decide_eq_true rfl⟩)
      exact List.mem_eraseDups.mpr (List.mem_map_of_mem member)
    · intro bounded key _ row member
      exact bounded row (List.mem_filter.mp member).1

theorem lt_depth_documentFrom {levels level : Nat} {rows : List Row} (filled : rows ≠ []) :
    2 * levels + 1 < (documentFrom names levels level rows).depth := by
  obtain ⟨first, rest, rfl⟩ := List.exists_cons_of_ne_nil filled
  rw [← Nat.zero_add (2 * levels), ← Nat.not_le, depth_documentFrom_le_iff]
  intro flat
  exact depth_leafOf_ne_zero names _ first (Nat.le_zero.mp (flat first List.mem_cons_self))

theorem depth_documentFrom_le_of_perm {levels level : Nat} {rows reordered : List Row}
    (permuted : rows.Perm reordered) :
    (documentFrom names levels level rows).depth ≤
      (documentFrom names levels level reordered).depth := by
  by_cases none : reordered = []
  · subst none
    rw [permuted.eq_nil]
  · obtain ⟨n, depth⟩ := Nat.exists_eq_add_of_le'
      (Nat.le_of_lt (@lt_depth_documentFrom names levels level reordered none))
    have bounded := depth_documentFrom_le_iff.mp (Nat.le_of_eq depth)
    rw [depth]
    apply depth_documentFrom_le_iff.mpr
    intro row member
    exact bounded row (permuted.mem_iff.mp member)

theorem depth_documentFrom_perm {levels level : Nat} {rows reordered : List Row}
    (permuted : rows.Perm reordered) :
    (documentFrom names levels level rows).depth =
      (documentFrom names levels level reordered).depth :=
  Nat.le_antisymm (depth_documentFrom_le_of_perm permuted)
    (depth_documentFrom_le_of_perm permuted.symm)

theorem depth_documentFrom_of_simple {levels level : Nat} {rows : List Row} (filled : rows ≠ [])
    (simple : ∀ row ∈ rows, ∀ cell ∈ row, cell.toJson.isSimple) :
    (documentFrom names levels level rows).depth = 2 * levels + 2 := by
  have shallow : (documentFrom names levels level rows).depth ≤ 1 + 2 * levels + 1 :=
    depth_documentFrom_le_iff.mpr fun row member => depth_leafOf_le_one (simple row member)
  have deep := @lt_depth_documentFrom names levels level rows filled
  omega

theorem document_of_head? {rows : List Row} {first : Row} (levels keyCount : Nat)
    (leading : rows.head? = some first) (fits : first.length ≤ names.length) :
    Nesting.document names rows true levels keyCount =
      .ok (documentFrom names (names.length - first.length) 0 rows) := by
  obtain ⟨rest, rfl⟩ := List.head?_eq_some_iff.mp leading
  rw [Nesting.document, if_pos rfl, if_neg (Nat.not_lt.mpr fits), documentOf_eq_documentFrom]

/-- Under given names, two orders of some rows both make a document. The two are equally deep if the
first rows have the same width, and for rows of simple values only then. -/
theorem depth_document_eq_iff {rows reordered : List Row} (levels keyCount : Nat)
    (permuted : rows.Perm reordered) (fits : ∀ row ∈ rows, row.length ≤ names.length) :
    ∃ document other,
      Nesting.document names rows true levels keyCount = .ok document ∧
      Nesting.document names reordered true levels keyCount = .ok other ∧
      (rows.head?.map List.length = reordered.head?.map List.length →
        document.depth = other.depth) ∧
      ((∀ row ∈ rows, ∀ cell ∈ row, cell.toJson.isSimple) →
        (document.depth = other.depth ↔
          rows.head?.map List.length = reordered.head?.map List.length)) := by
  cases rows with
  | nil =>
    rw [← permuted.nil_eq]
    exact ⟨_, _, rfl, rfl, fun _ => rfl, fun _ => iff_of_true rfl rfl⟩
  | cons first rest =>
    cases reordered with
    | nil => exact absurd permuted.eq_nil (List.cons_ne_nil _ _)
    | cons lead more =>
      have firstFits := fits first List.mem_cons_self
      have leadFits := fits lead (permuted.mem_iff.mpr List.mem_cons_self)
      refine ⟨_, _, document_of_head? levels keyCount rfl firstFits,
        document_of_head? levels keyCount rfl leadFits, ?_, ?_⟩
      · intro same
        rw [Option.some.inj same]
        exact depth_documentFrom_perm permuted
      · intro simple
        rw [depth_documentFrom_of_simple (List.cons_ne_nil _ _) simple,
          depth_documentFrom_of_simple (List.cons_ne_nil _ _) fun row member =>
            simple row (permuted.mem_iff.mpr member)]
        simp only [List.head?_cons, Option.map_some, Option.some.injEq]
        omega

/-- Rows of different widths, of which the first and the last change places. -/
theorem depth_document_eq_iff_swapped :
    let names := ["a", "bs", "b"]
    let rows : List Row := [[.text "x", .int 1], [.text "y"], [.text "x", .text "2"]]
    rows.Perm rows.reverse ∧ (∀ row ∈ rows, row.length ≤ names.length) ∧
    (∀ row ∈ rows, ∀ cell ∈ row, cell.toJson.isSimple) ∧
    ∃ document other,
      Nesting.document names rows true 0 0 = .ok document ∧
      Nesting.document names rows.reverse true 0 0 = .ok other ∧ document.depth = other.depth := by
  intro names rows
  have permuted : rows.Perm rows.reverse := (List.reverse_perm rows).symm
  have fits : ∀ row ∈ rows, row.length ≤ names.length := by decide
  have simple : ∀ row ∈ rows, ∀ cell ∈ row, cell.toJson.isSimple := by
    simp [rows, Cell.toJson, Json.isSimple]
  obtain ⟨document, other, built, reordered, -, equal⟩ := depth_document_eq_iff 0 0 permuted fits
  exact ⟨permuted, fits, simple, document, other, built, reordered, (equal simple).mpr rfl⟩

/-- With the narrow row in front there is one more level, for which the names do not suffice. -/
theorem depth_document_narrow_first :
    let names := ["name", "items", "count"]
    let rows : List Row := [[.text "web", .text "3"], [.text "a"]]
    let reordered : List Row := [[.text "a"], [.text "web", .text "3"]]
    rows.Perm reordered ∧ (∀ row ∈ rows, row.length ≤ names.length) ∧
    (Nesting.document names rows true 0 0).map Json.depth = .ok 4 ∧
    (Nesting.document names reordered true 0 0).map Json.depth = .ok 6 :=
  ⟨.swap _ _ [], by decide, rfl, rfl⟩

end Nesting

end Tabular
