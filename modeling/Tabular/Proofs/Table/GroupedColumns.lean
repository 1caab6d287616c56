import Tabular.Proofs.Range.Membership
import Tabular.Proofs.Table.PrintedLines
import Tabular.Proofs.Table.RowOrder

/-!
# The columns of grouped rows

A grouped row has its key columns in front and a total for every other column, made of the texts of
all rows with its key. Which columns there are is decided by the first row. So no column is dropped
just where no row is wider than the first one.
-/

namespace Tabular

namespace Table

variable {grouping : Grouping} {table : Table}

def widest (table : Table) : Nat :=
  table.rows.foldl (fun n row => max n row.length) 0

def groupColumns (grouping : Grouping) (table : Table) : List Nat :=
  table.groupKeys grouping ++ table.groupValues grouping

theorem widest_le_iff {bound : Nat} :
    table.widest ≤ bound ↔ ∀ row ∈ table.rows, row.length ≤ bound := by
  rw [widest, Layout.foldl_max_le_iff]
  simp

theorem width_le_widest (table : Table) : table.width ≤ table.widest := by
  have bound := widest_le_iff.mp (Nat.le_refl table.widest)
  unfold width
  cases rows : table.rows with
  | nil => exact Nat.zero_le _
  | cons first rest => exact bound first (rows ▸ List.mem_cons_self)

theorem lt_width_of_mem_groupKeys {column : Nat} (key : column ∈ table.groupKeys grouping) :
    column < table.width :=
  (Range.mem_positionsInBounds.mp key).2

theorem mem_groupColumns_iff {column : Nat} :
    column ∈ table.groupColumns grouping ↔ column < table.width := by
  rw [groupColumns, List.mem_append, groupValues, List.mem_filter, List.mem_range]
  constructor
  · rintro (key | ⟨inside, _⟩)
    · exact lt_width_of_mem_groupKeys key
    · exact inside
  · intro inside
    by_cases key : column ∈ table.groupKeys grouping
    · exact .inl key
    · exact .inr ⟨inside, by simpa using key⟩

/-- Unless a key is listed twice, each column of the first row is shown once. -/
theorem groupColumns_perm (once : (table.groupKeys grouping).Nodup) :
    (table.groupColumns grouping).Perm (List.range table.width) := by
  have distinct : (table.groupColumns grouping).Nodup := by
    refine List.nodup_append.mpr ⟨once, List.nodup_range.filter _, ?_⟩
    rintro column key _ value rfl
    have other := (List.mem_filter.mp value).2
    simp [key] at other
  rw [List.perm_ext_iff_of_nodup distinct List.nodup_range]
  intro column
  rw [mem_groupColumns_iff, List.mem_range]

/-- The row shows the key texts of the first one of some rows, and for each other column the total
of the texts that all of them have there. A missing cell is empty. -/
def ShowsTogether (grouping : Grouping) (table : Table) (rows : List Row) (shown : Row) : Prop :=
  ∃ first, rows.head? = some first ∧
    shown = (table.groupKeys grouping).map (fun column => .text (Group.textAt first column)) ++
      (table.groupValues grouping).map fun column =>
        (Total.ofTexts (rows.map (Group.textAt · column))).toCell

theorem showsTogether_row_ofRows (plain : grouping.folds = false)
    (uncounted : grouping.counts = false) (joiner : String) {rows : List Row}
    (filled : rows ≠ []) :
    table.ShowsTogether grouping rows
      ((Group.ofRows (table.groupKeys grouping) (table.groupValues grouping) rows).row
        grouping joiner) := by
  obtain ⟨first, rest, rfl⟩ := List.exists_cons_of_ne_nil filled
  refine ⟨first, rfl, ?_⟩
  rw [Group.ofRows_eq, Group.row]
  simp only [plain, uncounted, Bool.false_eq_true, if_false, List.append_nil, List.head?_cons,
    Option.map_some, Option.getD_some, Group.texts, List.map_map]
  congr 1
  refine List.map_congr_left fun column _ => ?_
  rw [Function.comp_apply, Group.columnTotal_eq_ofTexts]

/-- Grouping without folding and counting gives one row for each joined key, in the order in which
the keys first come, and that row shows all rows with its key. It has the columns of the first row
of the table, a key as often as it is listed. So every cell of the table is in a column that is
shown just where the first row is as wide as the widest, and then each column of the widest row is
shown once, if no key is listed twice. -/
theorem group_shows_columns_iff (plain : grouping.folds = false)
    (uncounted : grouping.counts = false) (joiner : String) :
    List.Forall₂ (fun key row =>
        table.ShowsTogether grouping (table.onlyKey grouping key).rows row)
      (table.joinedKeys grouping) (table.group grouping joiner).rows ∧
    ((∀ row ∈ table.rows, ∀ column < row.length, column ∈ table.groupColumns grouping) ↔
      table.width = table.widest) ∧
    ((table.groupKeys grouping).Nodup →
      ((table.groupColumns grouping).Perm (List.range table.widest) ↔
        table.width = table.widest)) := by
  refine ⟨?rows, ?shown, ?once⟩
  case rows =>
    rw [rows_group_eq_map_joinedKeys, List.forall₂_map_right_iff]
    refine List.forall₂_same.mpr fun key known => ?_
    exact showsTogether_row_ofRows plain uncounted joiner (rows_onlyKey_ne_nil known)
  case shown =>
    simp only [mem_groupColumns_iff]
    constructor
    · intro shown
      refine Nat.le_antisymm (width_le_widest table) (widest_le_iff.mpr fun row member => ?_)
      exact le_of_forall_lt fun column inside => shown row member column inside
    · intro same row member column inside
      have bound := widest_le_iff.mp (Nat.le_refl table.widest) row member
      omega
  case once =>
    intro once
    have perm := groupColumns_perm once
    constructor
    · intro all
      simpa using (perm.symm.trans all).length_eq
    · intro same
      rwa [same] at perm

/-- Rows that end before their key or before a value, behind a first row that does not. -/
theorem group_shows_columns_iff_short :
    let grouping : Grouping := { keys := .ofIndices [1] }
    let table : Table := { labels := [], rows := [[.text "1", .text "a", .text "x"],
      [.text "2", .text "b"], [.text "3"], [.text "4", .text "a"],
      [.text "y", .text "b", .text "7"]] }
    table.width = table.widest ∧
    List.Forall₂ (fun key row =>
        table.ShowsTogether grouping (table.onlyKey grouping key).rows row)
      ["a", "b", ""] (table.group grouping ",").rows ∧
    (∀ row ∈ table.rows, ∀ column < row.length, column ∈ table.groupColumns grouping) ∧
    (table.groupColumns grouping).Perm (List.range 3) ∧
    (table.group grouping ",").rows.map (·.map Cell.render) =
      [["a", "5", "x,"], ["b", "2", ",7"], ["", "3", ""]] := by
  intro grouping table
  obtain ⟨rows, shown, once⟩ := @group_shows_columns_iff grouping table rfl rfl ","
  have same : table.width = table.widest := rfl
  have keys : table.joinedKeys grouping = ["a", "b", ""] := by decide +kernel
  rw [keys] at rows
  exact ⟨same, rows, shown.mpr same, (once (by decide)).mpr same, by decide +kernel⟩

/-- A first row that ends early takes the columns behind its end from all rows. In the other order
of the rows nothing is dropped. -/
theorem group_drops_columns :
    let grouping : Grouping := { keys := .ofIndices [0] }
    let short : Row := [.text "a"]
    let long : Row := [.text "b", .text "5"]
    let table (rows : List Row) : Table := { labels := [], rows }
    (table [short, long]).widest = 2 ∧
    ((table [short, long]).group grouping ",").rows.map (·.map Cell.render) = [["a"], ["b"]] ∧
    ((table [long, short]).group grouping ",").rows.map (·.map Cell.render) =
      [["b", "5"], ["a", ""]] := by
  decide +kernel

end Table

end Tabular
