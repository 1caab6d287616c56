import Mathlib.Algebra.GroupWithZero.Nat
import Mathlib.Algebra.Ring.Int.Defs
import Mathlib.Algebra.BigOperators.Group.List.Basic
import Tabular.Proofs.Table.Groups

/-!
# Groups apart from each other

The row that grouping gives for a key depends on the rows with that key alone: it is the row that
comes out where no other rows are in the table. The counts of the groups add up to all rows.
-/

namespace Tabular

theorem Keyed.sum_length_filter {κ ι : Type} [DecidableEq κ] {keyOf : ι → κ} {keys : List κ}
    (distinct : keys.Nodup) {items : List ι}
    (known : ∀ item ∈ items, keyOf item ∈ keys) :
    (keys.map fun k => (items.filter (keyOf · = k)).length).sum = items.length := by
  induction keys generalizing items with
  | nil =>
    have none : items = [] := List.eq_nil_iff_forall_not_mem.mpr fun item member =>
      List.not_mem_nil (known item member)
    rw [none]
    rfl
  | cons first keys ih =>
    obtain ⟨absent, distinct⟩ := List.nodup_cons.mp distinct
    have others : ∀ item ∈ items.filter (fun item => !decide (keyOf item = first)),
        keyOf item ∈ keys := by
      intro item member
      obtain ⟨member, apart⟩ := List.mem_filter.mp member
      exact List.mem_of_ne_of_mem (by simpa using apart) (known item member)
    have rest : keys.map (fun k => (items.filter (keyOf · = k)).length) =
        keys.map fun k =>
          ((items.filter fun item => !decide (keyOf item = first)).filter
            (keyOf · = k)).length := by
      refine List.map_congr_left fun k member => ?_
      rw [List.filter_filter]
      refine congrArg List.length (List.filter_congr fun item _ => ?_)
      by_cases here : keyOf item = k
      · have apart : keyOf item ≠ first := fun same => absent (same ▸ here ▸ member)
        simp [← here, apart]
      · simp [here]
    rw [List.map_cons, List.sum_cons, rest, ih distinct others,
      ← List.length_eq_length_filter_add]

namespace Group

variable {keys values : List Nat} {row : Row} {rows : List Row}

theorem keys_ofRows (filled : rows ≠ []) (same : ∀ row ∈ rows, joinedKey keys row = key) :
    keySeparator.intercalate (ofRows keys values rows).keys = key := by
  obtain ⟨first, rest, rfl⟩ := List.exists_cons_of_ne_nil filled
  rw [ofRows_eq]
  exact same first List.mem_cons_self

theorem length_keys_ofRows (filled : rows ≠ []) :
    (ofRows keys values rows).keys.length = keys.length := by
  obtain ⟨first, rest, rfl⟩ := List.exists_cons_of_ne_nil filled
  rw [ofRows_eq]
  exact List.length_map ..

theorem count_ofRows (keys values : List Nat) (rows : List Row) :
    (ofRows keys values rows).count = rows.length := by
  rw [ofRows_eq]

theorem collect_eq_singleton (filled : rows ≠ []) (same : ∀ row ∈ rows, joinedKey keys row = key) :
    collect keys values rows = [(key, ofRows keys values rows)] := by
  have one : (rows.map (joinedKey keys)).eraseDups = [key] := by
    refine Keyed.eraseDups_eq_singleton (by simpa using filled) fun joined known => ?_
    obtain ⟨row, member, rfl⟩ := List.mem_map.mp known
    exact same row member
  have all : rows.filter (joinedKey keys · = key) = rows :=
    List.filter_eq_self.mpr fun row member => decide_eq_true (same row member)
  rw [collect_eq, one, List.map_singleton, all]

theorem take_row (grouping : Grouping) (joiner : String) (group : Group) :
    (group.row grouping joiner).take group.keys.length = group.keys.map Cell.text := by
  rw [row, List.append_assoc]
  exact List.take_left' (List.length_map ..)

theorem getElem?_row_ofRows {grouping : Grouping} {index column : Nat}
    (plain : grouping.folds = false) (joiner : String) (filled : rows ≠ [])
    (value : values[index]? = some column) :
    ((ofRows keys values rows).row grouping joiner)[keys.length + index]? =
      some (columnTotal rows column).toCell := by
  have inside := (List.getElem?_eq_some_iff.mp value).1
  rw [row, List.append_assoc, ← @length_keys_ofRows keys values rows filled,
    List.getElem?_append_right (by simp), List.length_map, Nat.add_sub_cancel_left]
  simp only [plain, Bool.false_eq_true, if_false]
  rw [List.getElem?_append_left (by simpa [ofRows_eq] using inside), List.getElem?_map, ofRows_eq,
    List.getElem?_map, value, Option.map_some, Option.map_some]

theorem getElem?_row_ofRows_of_folds {grouping : Grouping} (folds : grouping.folds = true)
    (joiner : String) (filled : rows ≠ []) :
    ((ofRows keys values rows).row grouping joiner)[keys.length]? =
      some (fold joiner (values.map fun column => (columnTotal rows column).toCell)) := by
  rw [row, List.append_assoc, ← @length_keys_ofRows keys values rows filled,
    List.getElem?_append_right (by simp), List.length_map, Nat.sub_self]
  simp only [folds, if_true]
  rw [ofRows_eq, List.map_map]
  rfl

theorem getLast?_row {grouping : Grouping} (counts : grouping.counts = true) (joiner : String)
    (group : Group) :
    (group.row grouping joiner).getLast? = some (.int (.ofNat group.count)) := by
  simp [row, counts]

end Group

namespace Table

def joinedKeys (grouping : Grouping) (table : Table) : List String :=
  (table.rows.map (Group.joinedKey (table.groupKeys grouping))).eraseDups

/-- The table with the rows of one key alone. -/
def onlyKey (grouping : Grouping) (table : Table) (key : String) : Table :=
  { table with rows := table.rows.filter (Group.joinedKey (table.groupKeys grouping) · = key) }

variable {grouping : Grouping} {table : Table} {key : String}

theorem rows_onlyKey_ne_nil (known : key ∈ table.joinedKeys grouping) :
    (table.onlyKey grouping key).rows ≠ [] := by
  obtain ⟨row, member, rfl⟩ := List.mem_map.mp (List.mem_eraseDups.mp known)
  exact List.ne_nil_of_mem (List.mem_filter.mpr ⟨member, decide_eq_true rfl⟩)

theorem joinedKey_of_mem_onlyKey {row : Row} (member : row ∈ (table.onlyKey grouping key).rows) :
    Group.joinedKey (table.groupKeys grouping) row = key :=
  of_decide_eq_true (List.mem_filter.mp member).2

theorem width_onlyKey (wide : ∀ row ∈ table.rows, row.length = table.width)
    (known : key ∈ table.joinedKeys grouping) :
    (table.onlyKey grouping key).width = table.width := by
  obtain ⟨first, rest, rows⟩ := List.exists_cons_of_ne_nil (rows_onlyKey_ne_nil known)
  have member : first ∈ (table.onlyKey grouping key).rows := rows ▸ List.mem_cons_self
  rw [width, rows]
  exact wide first (List.mem_of_mem_filter member)

/-- Without the rows of other keys the same group comes out. -/
theorem rows_group_onlyKey (wide : ∀ row ∈ table.rows, row.length = table.width)
    (known : key ∈ table.joinedKeys grouping) (joiner : String) :
    ((table.onlyKey grouping key).group grouping joiner).rows =
      [(Group.ofRows (table.groupKeys grouping) (table.groupValues grouping)
        (table.onlyKey grouping key).rows).row grouping joiner] := by
  have keys : (table.onlyKey grouping key).groupKeys grouping = table.groupKeys grouping :=
    congrArg grouping.keys.positionsInBounds (width_onlyKey wide known)
  have values :
      (table.onlyKey grouping key).groupValues grouping = table.groupValues grouping := by
    rw [groupValues, groupValues, keys, width_onlyKey wide known]
  rw [rows_group, keys, values, Group.collect_eq_singleton (rows_onlyKey_ne_nil known)
    fun row member => joinedKey_of_mem_onlyKey member, List.map_singleton]

theorem rows_group_eq_map_joinedKeys (grouping : Grouping) (joiner : String) (table : Table) :
    (table.group grouping joiner).rows = (table.joinedKeys grouping).map fun key =>
      (Group.ofRows (table.groupKeys grouping) (table.groupValues grouping)
        (table.onlyKey grouping key).rows).row grouping joiner := by
  rw [rows_group, Group.collect_eq, List.map_map]
  rfl

theorem sum_length_onlyKey (grouping : Grouping) (table : Table) :
    ((table.joinedKeys grouping).map fun key => (table.onlyKey grouping key).rows.length).sum =
      table.rows.length :=
  Keyed.sum_length_filter (Keyed.nodup_eraseDups _) fun _ member =>
    List.mem_eraseDups.mpr (List.mem_map_of_mem member)

/-- Grouping gives one row for each joined key, in the order in which the keys first come. The row
of a key has the texts of that key in front, and it is the only row that comes out of the table with
the rows of this key alone. The counts are the numbers of these rows, which are all rows together.
-/
theorem group_forall_onlyKey (wide : ∀ row ∈ table.rows, row.length = table.width)
    (grouping : Grouping) (joiner : String) :
    List.Forall₂ (fun key row =>
        Group.keySeparator.intercalate
            ((row.take (table.groupKeys grouping).length).map Cell.render) = key ∧
          ((table.onlyKey grouping key).group grouping joiner).rows = [row])
      (table.joinedKeys grouping) (table.group grouping joiner).rows ∧
    (grouping.counts = true →
      (table.group grouping joiner).rows.map List.getLast? =
          (table.joinedKeys grouping).map (fun key =>
            some (.int (.ofNat (table.onlyKey grouping key).rows.length))) ∧
        ((table.joinedKeys grouping).map fun key =>
          (table.onlyKey grouping key).rows.length).sum = table.rows.length) := by
  rw [rows_group_eq_map_joinedKeys]
  refine ⟨?rows, fun counts => ⟨?counts, sum_length_onlyKey grouping table⟩⟩
  case rows =>
    refine List.forall₂_map_right_iff.mpr (List.forall₂_same.mpr fun key known => ⟨?_, ?_⟩)
    · have filled := rows_onlyKey_ne_nil known
      have front := Group.take_row grouping joiner
        (Group.ofRows (table.groupKeys grouping) (table.groupValues grouping)
          (table.onlyKey grouping key).rows)
      rw [Group.length_keys_ofRows filled] at front
      rw [front, List.map_map]
      exact (congrArg Group.keySeparator.intercalate (List.map_id _)).trans
        (Group.keys_ofRows filled fun row member => joinedKey_of_mem_onlyKey member)
    · exact rows_group_onlyKey wide known joiner
  case counts =>
    rw [List.map_map]
    refine List.map_congr_left fun key _ => ?_
    rw [Function.comp_apply, Group.getLast?_row counts, Group.count_ofRows]

/-- Rows of two keys in turn, one of which is a number in one row and its text in the other. -/
theorem group_forall_onlyKey_interleaved :
    let grouping : Grouping := { keys := .ofIndices [1], counts := true }
    let table : Table := { labels := ["n", "kind"], rows := [[.text "1", .int 7],
      [.text "x", .text "a"], [.text "2", .text "7"], [.text "3", .text "a"]] }
    (∀ row ∈ table.rows, row.length = table.width) ∧
    table.joinedKeys grouping = ["7", "a"] ∧
    List.Forall₂ (fun key row =>
        Group.keySeparator.intercalate
            ((row.take (table.groupKeys grouping).length).map Cell.render) = key ∧
          ((table.onlyKey grouping key).group grouping ",").rows = [row])
      (table.joinedKeys grouping) (table.group grouping ",").rows ∧
    (table.group grouping ",").rows.map List.getLast? =
      (table.joinedKeys grouping).map (fun key =>
        some (.int (.ofNat (table.onlyKey grouping key).rows.length))) := by
  intro grouping table
  have wide : ∀ row ∈ table.rows, row.length = table.width := by decide
  obtain ⟨rows, counts⟩ := group_forall_onlyKey wide grouping ","
  exact ⟨wide, by decide +kernel, rows, (counts rfl).1⟩

end Table

end Tabular
