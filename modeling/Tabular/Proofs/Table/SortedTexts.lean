import Tabular.Proofs.Table.Sorting
import Tabular.Proofs.Table.SortedRows
import Tabular.Proofs.Text.ByteOrder

/-!
# Rows sorted by texts

Rows of texts are sorted by the bytes of the texts in a column, where a missing cell counts as empty
text. But the column counts only if the first row has it: otherwise the rows stay in the order that
they have.
-/

namespace Tabular

theorem Cell.infer_eq_text {s : String} (word : (infer s).isNumber = false) :
    infer s = .text s := by
  unfold infer at word ⊢
  cases read : Decimal.readWord? s.toList with
  | some n => simp [read, isNumber] at word
  | none =>
    cases finite : Decimal.readFinite? s.toList with
    | some x => simp [read, finite, isNumber] at word
    | none => rfl

namespace Sorting

def byColumn (k : Nat) : Sorting where
  keys := .ofIndices [k]

theorem positionsInBounds_byColumn (k length : Nat) :
    (byColumn k).keys.positionsInBounds length = if k < length then [k] else [] := by
  have resolved : Range.resolve length k = k := by simp [Range.resolve]
  have positions : (byColumn k).keys.positions length = [(k : Int)] := by
    simp [byColumn, Range.ofIndices, Range.positions, Range.positionsBy, resolved]
  rw [Range.positionsInBounds, positions]
  by_cases inside : k < length
  · simp [Range.inBounds?, inside]
  · simp [Range.inBounds?, inside]

/-- A row with text at a column, or with no cell there, where the text is no numeral. -/
def WordAt (k : Nat) (row : Row) : Prop :=
  ∃ s, keyCell k row = .text s ∧ (Cell.infer s).isNumber = false

/-- The bytes of the text of a row at a column; a missing cell is empty text. -/
def keyBytes (k : Nat) (row : Row) : List UInt8 :=
  (keyCell k row).render.toUTF8.toList

section

variable {k : Nat} {row left right : Row} {rows : List Row}

theorem inferRow_of_wordAt (word : WordAt k row) : inferRow [k] row = row := by
  obtain ⟨s, key, other⟩ := word
  refine List.ext_getElem? fun column => ?_
  rw [rereadAt_inferRow [k] row column]
  cases here : row[column]? with
  | none => rfl
  | some cell =>
    by_cases same : column = k
    · subst same
      obtain rfl : cell = .text s := by simpa [keyCell, here] using key
      simp [Cell.reread, Cell.infer_eq_text other]
    · simp [same]

theorem uniformAt_of_wordAt (words : ∀ row ∈ rows, WordAt k row) : UniformAt rows k := by
  refine .inr (.inr fun row member => ?_)
  obtain ⟨s, key, -⟩ := words row member
  cases here : row[k]? with
  | none => rfl
  | some cell =>
    obtain rfl : cell = .text s := by simpa [keyCell, here] using key
    rfl

theorem keyBytes_le (wordLeft : WordAt k left)
    (sorted : Precedes false [k] left right ∨ tiesOn [k] left right) :
    keyBytes k left ≤ keyBytes k right := by
  obtain ⟨s, key, -⟩ := wordLeft
  have noNumber : (keyCell k left).isNumber = false := by
    rw [key]
    rfl
  obtain ⟨-, precedes, ties⟩ := order_of_isNumber noNumber (keyCell k right)
  have before : (keyCell k left).render ≤ (keyCell k right).render := by
    rcases sorted with (less | ⟨-, ⟨⟩⟩) | tie
    · rw [if_neg Bool.false_ne_true, precedes, decide_eq_true_eq] at less
      exact le_of_lt less
    · simp only [tiesOn, List.all_cons, List.all_nil, Bool.and_true, ties, beq_iff_eq] at tie
      exact le_of_eq tie
  intro less
  exact before (Text.toList_toUTF8_lt_iff.mp less)

end

end Sorting

namespace Table

variable {table : Table} {k : Nat}

/-- A column that the first row does not have is no key, so nothing is sorted. -/
theorem sort_byColumn_of_width_le (short : table.width ≤ k) : table.sort (.byColumn k) = table := by
  have none : table.sortColumns (.byColumn k) = [] := by
    rw [sortColumns, Sorting.positionsInBounds_byColumn, if_neg (Nat.not_lt.mpr short)]
  have compared : table.comparedRows (.byColumn k) = table.rows := by
    rw [comparedRows, none, Sorting.inferRow_nil, List.map_id, ite_self]
  rw [sort_eq, none, compared,
    Sorting.mergeSort_eq_self fun left right => by simp [Sorting.order_nil]]

theorem sort_byColumn_of_lt_width (inside : k < table.width)
    (words : ∀ row ∈ table.rows, Sorting.WordAt k row) :
    (table.sort (.byColumn k)).rows = Sorting.mergeSort (Sorting.order false [k]) table.rows := by
  have one : table.sortColumns (.byColumn k) = [k] := by
    rw [sortColumns, Sorting.positionsInBounds_byColumn, if_pos inside]
  have same : table.rows.map (Sorting.inferRow [k]) = table.rows :=
    (List.map_congr_left fun row member => Sorting.inferRow_of_wordAt (words row member)).trans
      (List.map_id _)
  have compared : table.comparedRows (.byColumn k) = table.rows := by
    rw [comparedRows, one, same, ite_self]
  rw [sort_eq, one, compared]
  rfl

/-- Sorting rows of texts by one column moves the rows only. They then ascend by the bytes of the
texts in the column if the first row has the column, whichever rows miss it; if it does not, they
ascend only where they did before. -/
theorem sort_byColumn_ascends_iff (table : Table) (k : Nat)
    (words : ∀ row ∈ table.rows, Sorting.WordAt k row) :
    (table.sort (.byColumn k)).rows.Perm table.rows ∧
      ((table.sort (.byColumn k)).rows.Pairwise
          (fun left right => Sorting.keyBytes k left ≤ Sorting.keyBytes k right) ↔
        k < table.width ∨ table.rows.Pairwise
          fun left right => Sorting.keyBytes k left ≤ Sorting.keyBytes k right) := by
  by_cases inside : k < table.width
  · have sorted := sort_byColumn_of_lt_width inside words
    have uniform : ∀ column ∈ [k], Sorting.UniformAt table.rows column := by
      rintro column (- | ⟨-, ⟨⟩⟩)
      exact Sorting.uniformAt_of_wordAt words
    have perm : (table.sort (.byColumn k)).rows.Perm table.rows :=
      sorted ▸ Sorting.mergeSort_perm _ _
    refine ⟨perm, iff_of_true ?_ (.inl inside)⟩
    rw [sorted]
    refine (Sorting.pairwise_mergeSort_order false uniform).imp_of_mem fun {left _} member _ => ?_
    exact Sorting.keyBytes_le (words left (perm.mem_iff.mp (sorted ▸ member)))
  · rw [sort_byColumn_of_width_le (Nat.not_lt.mp inside)]
    simp [inside]

/-- The first row has the column, and two of the others do not. -/
theorem sort_byColumn_ascends_iff_short :
    let table : Table := { labels := [], rows :=
      [[.text "b", .text "y"], [.text "é"], [.text "a", .text "É"], [], [.text "c", .text "x"]] }
    (∀ row ∈ table.rows, Sorting.WordAt 1 row) ∧
      (table.sort (.byColumn 1)).rows.Pairwise
        fun left right => Sorting.keyBytes 1 left ≤ Sorting.keyBytes 1 right := by
  intro table
  have words : ∀ row ∈ table.rows, Sorting.WordAt 1 row := by
    simp only [table, List.forall_mem_cons]
    exact ⟨⟨"y", rfl, by decide +kernel⟩, ⟨"", rfl, by decide +kernel⟩,
      ⟨"É", rfl, by decide +kernel⟩, ⟨"", rfl, by decide +kernel⟩,
      ⟨"x", rfl, by decide +kernel⟩, by simp⟩
  exact ⟨words, (sort_byColumn_ascends_iff table 1 words).2.mpr (.inl (by decide))⟩

/-- The first row misses the column, and rows that have it stay in the wrong order. -/
theorem sort_byColumn_unsorted :
    let table : Table :=
      { labels := [], rows := [[.text "z"], [.text "b", .text "y"], [.text "a", .text "x"]] }
    (∀ row ∈ table.rows, Sorting.WordAt 1 row) ∧
      ¬(table.sort (.byColumn 1)).rows.Pairwise
        fun left right => Sorting.keyBytes 1 left ≤ Sorting.keyBytes 1 right := by
  intro table
  have words : ∀ row ∈ table.rows, Sorting.WordAt 1 row := by
    simp only [table, List.forall_mem_cons]
    exact ⟨⟨"", rfl, by decide +kernel⟩, ⟨"y", rfl, by decide +kernel⟩,
      ⟨"x", rfl, by decide +kernel⟩, by simp⟩
  refine ⟨words, ?_⟩
  rw [sort_byColumn_of_width_le (by decide)]
  decide +kernel

end Table

end Tabular
