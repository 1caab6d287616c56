import Tabular.Proofs.Decimal.ReadBack
import Tabular.Proofs.Table.Descending
import Tabular.Proofs.Table.RunningSums

/-!
# Groups of one row

Grouping takes in the text of a cell, and the text of a float has two places after the point. So
even where every row is a group of its own, a float comes back as the float nearest to its
hundredths. Only words come back as they are, and the floats that are nearest to some hundredths.
-/

namespace Tabular

namespace Cell

variable {cell : Cell} {q : ℚ}

theorem number?_infer_twoPlaces {x : Float} (finite : Decimal.value? x = some q) :
    (infer (Decimal.twoPlaces x)).number? =
      some (Decimal.rounded (Decimal.nearestEven (100 * q) / 100)) := by
  have spells := Decimal.spellsHundredths_twoPlaces finite
  unfold infer
  cases word : Decimal.readWord? (Decimal.twoPlaces x).toList with
  | some w => exact congrArg some (spells.toInt_eq word)
  | none =>
    obtain ⟨y, found, denoted⟩ := spells.exists_readFinite?
    rw [found]
    exact denoted.value?

end Cell

theorem Total.toCell_ofText {text : String} {q : ℚ} (number : (Cell.infer text).number? = some q) :
    (ofText text).toCell = Cell.infer text := by
  unfold ofText
  cases inferred : Cell.infer text with
  | int | float => rfl
  | text | set | structured =>
    rw [inferred] at number
    cases number

namespace Table

variable {grouping : Grouping} {table : Table}

/-- Without two rows of one key, each row makes up a group. -/
theorem rows_group_of_nodup
    (apart : (table.rows.map (Group.joinedKey (table.groupKeys grouping))).Nodup)
    (joiner : String) :
    (table.group grouping joiner).rows = table.rows.map fun row =>
      (Group.ofRows (table.groupKeys grouping) (table.groupValues grouping) [row]).row
        grouping joiner := by
  rw [rows_group_eq_map_joinedKeys, joinedKeys, Keyed.eraseDups_eq_self apart, List.map_map]
  apply List.map_congr_left
  intro row member
  rw [Function.comp_apply, onlyKey]
  dsimp only
  rw [Keyed.filter_eq_singleton apart member]

/-- Where every row is a group of its own, there are as many rows as before. A word in a value
column stays what it is. A float becomes the number nearest to its hundredths, so it is kept just if
it is the float nearest to some hundredths. -/
theorem group_single_rows {place index column : Nat} {row : Row} {cell : Cell} {q : ℚ}
    (plain : grouping.folds = false)
    (apart : (table.rows.map (Group.joinedKey (table.groupKeys grouping))).Nodup)
    (known : table.rows[place]? = some row)
    (value : (table.groupValues grouping)[index]? = some column)
    (shown : row[column]? = some cell) (number : cell.number? = some q) (joiner : String) :
    (table.group grouping joiner).rows.length = table.rows.length ∧
    ∃ grouped result, (table.group grouping joiner).rows[place]? = some grouped ∧
      grouped[(table.groupKeys grouping).length + index]? = some result ∧
      (∀ n, cell = .int n → result = .int n) ∧
      (∀ x, cell = .float x →
        result.number? = some (Decimal.rounded (Decimal.nearestEven (100 * q) / 100))) ∧
      (result.number? = some q ↔
        (∃ n, cell = .int n) ∨ ∃ n : Int, q = Decimal.rounded (n / 100)) := by
  have rows := rows_group_of_nodup apart joiner
  have text : Group.textAt row column = cell.render := by
    rw [Group.textAt, shown]
    rfl
  refine ⟨by rw [rows, List.length_map], (Group.ofRows (table.groupKeys grouping)
    (table.groupValues grouping) [row]).row grouping joiner, (Total.ofText cell.render).toCell,
    ?grouped, ?result, ?_⟩
  case grouped => rw [rows, List.getElem?_map, known, Option.map_some]
  case result =>
    rw [Group.getElem?_row_ofRows plain joiner (List.cons_ne_nil _ _) value,
      Group.columnTotal_singleton, text]
  cases cell with
  | int n =>
    have kept : (Total.ofText (Cell.int n).render).toCell = .int n := by
      rw [Cell.render, Total.ofText, Cell.infer, Decimal.readWord?_wordText]
      rfl
    rw [kept]
    refine ⟨fun _ same => same, fun _ => Cell.noConfusion, ?_⟩
    exact iff_of_true number (.inl ⟨n, rfl⟩)
  | float x =>
    have read := Cell.number?_infer_twoPlaces (show Decimal.value? x = some q from number)
    have kept : (Total.ofText (Cell.float x).render).toCell = Cell.infer (Decimal.twoPlaces x) :=
      Total.toCell_ofText read
    rw [kept, read]
    refine ⟨fun _ => Cell.noConfusion, fun _ _ => rfl, ?_⟩
    rw [Option.some_inj, Decimal.rounded_nearestEven_hundredths_iff]
    exact (or_iff_right (by rintro ⟨n, same⟩; cases same)).symm
  | text | set | structured => cases number

/-- The cells of a typed table: a word, and a float with a half. -/
theorem group_single_rows_half :
    let grouping : Grouping := { keys := .ofIndices [1] }
    let table : Table :=
      { labels := [], rows := [[.int 7, .text "a"], [.float 1.5, .text "b"]], typed := true }
    (table.rows.map (Group.joinedKey (table.groupKeys grouping))).Nodup ∧
    (Cell.float 1.5).number? = some (3 / 2) ∧
    ∃ grouped result, (table.group grouping ",").rows[1]? = some grouped ∧
      grouped[1]? = some result ∧ result.number? = some (3 / 2) := by
  intro grouping table
  have apart : (table.rows.map (Group.joinedKey (table.groupKeys grouping))).Nodup := by
    decide +kernel
  have number : (Cell.float 1.5).number? = some (3 / 2) := by decide +kernel
  obtain ⟨-, grouped, result, row, cell, -, -, kept⟩ :=
    @group_single_rows grouping table 1 0 0 [.float 1.5, .text "b"] (.float 1.5) (3 / 2) rfl apart
      rfl rfl rfl number ","
  exact ⟨apart, number, grouped, result, row, cell, kept.mpr (.inr ⟨150, by decide +kernel⟩)⟩

/-- A float with four places after its point is not kept. -/
theorem group_cuts_places :
    let grouping : Grouping := { keys := .ofIndices [0] }
    let table : Table := { labels := [], rows := [[.text "a", .float 1.2345]], typed := true }
    (table.group grouping ",").rows.map (·.map Cell.number?) =
      [[none, (Cell.float 1.23).number?]] ∧
    (Cell.float 1.23).number? ≠ (Cell.float 1.2345).number? ∧
    (Cell.float 1.2345).number?.isSome := by
  decide +kernel

end Table

end Tabular
