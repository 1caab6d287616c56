import Tabular.Proofs.Table.SeparateGroups
import Tabular.Proofs.Table.SortedRows

/-!
# Labels and cells in step

Labels and rows of a table are made apart from each other. Grouping and computing give both of them
the same columns, and sorting keeps the width of every row, so a table with one label for each cell
stays one.
-/

namespace Tabular

theorem Sorting.RereadAt.forall₂ {columns : List Nat} {before after : Row}
    (reread : RereadAt columns before after) :
    List.Forall₂ (fun old new => new = old ∨ new = old.reread) before after := by
  have ends (column : Nat) : after.length ≤ column ↔ before.length ≤ column := by
    rw [← List.getElem?_eq_none_iff, reread column, Option.map_eq_none_iff,
      List.getElem?_eq_none_iff]
  have length : before.length = after.length :=
    Nat.le_antisymm ((ends _).mp (Nat.le_refl _)) ((ends _).mpr (Nat.le_refl _))
  refine List.forall₂_iff_get.mpr ⟨length, fun column inside outside => ?_⟩
  have read := reread column
  rw [List.getElem?_eq_getElem outside, List.getElem?_eq_getElem inside, Option.map_some,
    Option.some.injEq] at read
  rw [List.get_eq_getElem, List.get_eq_getElem, read]
  by_cases key : column ∈ columns
  · exact .inr (if_pos key)
  · exact .inl (if_neg key)

theorem Grouping.length_labels_eq (grouping : Grouping) (source : List String) (joiner : String)
    {keys values : List Nat} {group : Group} (named : group.keys.length = keys.length)
    (valued : group.totals.length = values.length) :
    (group.row grouping joiner).length = (grouping.labels source keys values).length := by
  unfold Group.row Grouping.labels
  cases grouping.folds <;> cases grouping.counts <;> simp [named, valued]

namespace Table

/-- If there are labels, there is one for each cell of every row. -/
def Aligned (table : Table) : Prop :=
  table.labels ≠ [] → ∀ row ∈ table.rows, row.length = table.labels.length

instance (table : Table) : Decidable table.Aligned :=
  inferInstanceAs (Decidable (_ → _))

variable {table : Table}

theorem labels_group (grouping : Grouping) (joiner : String) (table : Table) :
    (table.group grouping joiner).labels =
      if table.rows ≠ [] ∧ table.derivesLabels then
        grouping.labels table.labels (table.groupKeys grouping) (table.groupValues grouping)
      else table.labels := by
  obtain ⟨labels, rows, keyCount, typed, explicitLabels⟩ := table
  cases rows with
  | nil => rw [if_neg (fun both => both.1 rfl)]; rfl
  | cons first rows =>
    cases derives : Table.derivesLabels ⟨labels, first :: rows, keyCount, typed, explicitLabels⟩ <;>
      simp [group, derives, groupKeys, groupValues, width]

theorem exists_group_of_mem {grouping : Grouping} {joiner : String} {row : Row}
    (member : row ∈ (table.group grouping joiner).rows) :
    ∃ group : Group, row = group.row grouping joiner ∧
      group.keys.length = (table.groupKeys grouping).length ∧
      group.totals.length = (table.groupValues grouping).length := by
  rw [rows_group, Group.collect_eq, List.map_map] at member
  obtain ⟨key, known, rfl⟩ := List.mem_map.mp member
  refine ⟨_, rfl, ?_, ?_⟩
  · obtain ⟨first, inside, rfl⟩ := List.mem_map.mp (List.mem_eraseDups.mp known)
    apply Group.length_keys_ofRows
    exact List.ne_nil_of_mem (List.mem_filter.mpr ⟨inside, decide_eq_true rfl⟩)
  · rw [Group.ofRows_eq, List.length_map]

/-- Labels that grouping derives belong to the cells below them, however wide the rows were. -/
theorem aligned_group (derived : table.explicitLabels = false) (grouping : Grouping)
    (joiner : String) : (table.group grouping joiner).Aligned := by
  intro labelled row member
  obtain ⟨group, rfl, named, valued⟩ := exists_group_of_mem member
  have filled : table.rows ≠ [] := by
    intro none
    rw [rows_group, none] at member
    cases member
  have derives : table.derivesLabels = true := by
    rw [labels_group] at labelled
    by_contra absent
    rw [if_neg (fun both => absent both.2)] at labelled
    simp [derivesLabels, derived, labelled] at absent
  rw [labels_group, if_pos ⟨filled, derives⟩]
  exact grouping.length_labels_eq table.labels joiner named valued

theorem Aligned.compute (aligned : table.Aligned) (derived : table.explicitLabels = false)
    (formulas : List Formula) : (table.compute formulas).Aligned := by
  intro labelled row member
  obtain ⟨before, inside, rfl⟩ := List.mem_map.mp member
  by_cases none : table.labels = []
  · have bare : (table.compute formulas).labels = [] := by
      simp [Table.compute, derivesLabels, none]
    exact absurd bare labelled
  · have labels : (table.compute formulas).labels =
        Formula.extendLabels formulas table.labels := by
      simp [Table.compute, derivesLabels, derived, none]
    rw [labels, Formula.extendRow, Formula.extendLabels, List.length_append, List.length_append,
      List.length_map, List.length_map, aligned none before inside]

theorem length_of_mem_comparedRows {sorting : Sorting} {row : Row}
    (member : row ∈ table.comparedRows sorting) :
    ∃ before ∈ table.rows, row.length = before.length := by
  unfold comparedRows at member
  split at member
  · exact ⟨row, member, rfl⟩
  · obtain ⟨before, inside, rfl⟩ := List.mem_map.mp member
    exact ⟨before, inside, (Sorting.rereadAt_inferRow _ before).forall₂.length_eq.symm⟩

theorem Aligned.sort (aligned : table.Aligned) (sorting : Sorting) :
    (table.sort sorting).Aligned := by
  intro labelled row member
  rw [sort_eq] at labelled member ⊢
  have compared := (Sorting.mergeSort_perm _ _).mem_iff.mp member
  obtain ⟨before, inside, length⟩ := length_of_mem_comparedRows compared
  rw [length]
  exact aligned labelled before inside

end Table

end Tabular
