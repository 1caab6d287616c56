import Mathlib.Algebra.Order.BigOperators.Group.List
import Tabular.Proofs.Table.RowOrder

/-!
# Running sums

The whole numbers of a column are added up one after the other, and a running sum that is no word
turns the total into a float, which it then stays. So the total is the exact sum where all running
sums are words. This is so in every order of the rows just when the positive numbers together are a
word, and the negative ones too.
-/

namespace Tabular

namespace Total

/-- Numbers that are added to a start, one after the other, without leaving the words. -/
def RunsInWords (start : Int) (values : List Int) : Prop :=
  ∀ front ∈ values.inits, (Decimal.word? (start + front.sum)).isSome

instance (start : Int) (values : List Int) : Decidable (RunsInWords start values) :=
  inferInstanceAs (Decidable (∀ front ∈ values.inits, _))

theorem runsInWords_nil_iff {start : Int} :
    RunsInWords start [] ↔ (Decimal.word? start).isSome := by
  simp [RunsInWords]

theorem runsInWords_cons_iff {start value : Int} {values : List Int} :
    RunsInWords start (value :: values) ↔
      (Decimal.word? start).isSome ∧ RunsInWords (start + value) values := by
  simp [RunsInWords, add_assoc]

theorem RunsInWords.start {start : Int} {values : List Int} (inside : RunsInWords start values) :
    (Decimal.word? start).isSome := by
  cases values with
  | nil => exact runsInWords_nil_iff.mp inside
  | cons value values => exact (runsInWords_cons_iff.mp inside).1

theorem isSome_word?_iff {n : Int} :
    (Decimal.word? n).isSome ↔ -0x8000000000000000 ≤ n ∧ n < 0x8000000000000000 := by
  unfold Decimal.word?
  split
  · exact iff_of_true rfl ‹_›
  · exact iff_of_false Bool.false_ne_true ‹_›

theorem sum_front_le (front back : List Int) :
    ((front ++ back).filter (· < 0)).sum ≤ front.sum ∧
      front.sum ≤ ((front ++ back).filter (0 ≤ ·)).sum := by
  induction front with
  | nil =>
    constructor
    · have below := List.sum_le_card_nsmul (back.filter (· < 0)) 0 fun value member =>
        (of_decide_eq_true (List.mem_filter.mp member).2).le
      rwa [nsmul_zero] at below
    · apply List.sum_nonneg
      intro value member
      exact of_decide_eq_true (List.mem_filter.mp member).2
  | cons value front ih =>
    rw [List.cons_append, List.sum_cons]
    by_cases negative : value < 0
    · rw [List.filter_cons_of_pos (by simpa using negative),
        List.filter_cons_of_neg (by simpa using negative), List.sum_cons]
      omega
    · rw [List.filter_cons_of_neg (by simpa using negative),
        List.filter_cons_of_pos (by simpa using negative), List.sum_cons]
      omega

/-- The running sums are words in every order just when the sums of the two signs are. -/
theorem forall_perm_runsInWords_iff {α : Type} {value : α → Int} {items : List α} :
    (∀ others : List α, others.Perm items → RunsInWords 0 (others.map value)) ↔
      (Decimal.word? ((items.filter (0 ≤ value ·)).map value).sum).isSome ∧
      (Decimal.word? ((items.filter (value · < 0)).map value).sum).isSome := by
  constructor
  · intro inside
    have negative (item : α) : (!decide (0 ≤ value item)) = decide (value item < 0) := by
      rw [← decide_not, decide_eq_decide, not_le]
    have parts := List.filter_append_perm (0 ≤ value ·) items
    simp only [negative] at parts
    constructor
    · have sum := inside _ parts ((items.filter (0 ≤ value ·)).map value)
      rw [List.map_append, zero_add] at sum
      exact sum ((List.mem_inits _ _).mpr (List.prefix_append _ _))
    · have sum := inside _ (List.perm_append_comm.trans parts)
        ((items.filter (value · < 0)).map value)
      rw [List.map_append, zero_add] at sum
      exact sum ((List.mem_inits _ _).mpr (List.prefix_append _ _))
  · rintro ⟨above, below⟩ others permuted front leads
    obtain ⟨back, whole⟩ := (List.mem_inits _ _).mp leads
    obtain ⟨least, most⟩ := sum_front_le front back
    rw [whole, List.filter_map] at least most
    have upper := ((permuted.filter (0 ≤ value ·)).map value).sum_eq
    have lower := ((permuted.filter (value · < 0)).map value).sum_eq
    simp only [Function.comp_def] at least most
    rw [isSome_word?_iff] at above below ⊢
    omega

theorem exists_foldl_add_float (x : Float) (texts : List String) :
    ∃ y, texts.foldl add (float x) = float y := by
  induction texts generalizing x with
  | nil => exact ⟨x, rfl⟩
  | cons text texts ih =>
    rw [List.foldl_cons, add]
    split
    · exact ih _
    · exact ih x

theorem foldl_add_int_iff {sum n : Int64} {texts : List String}
    (words : ∀ text ∈ texts, (Decimal.readWord? text.toList).isSome) :
    texts.foldl add (int sum) = int n ↔
      RunsInWords sum.toInt (texts.map wholeValue) ∧
        n.toInt = sum.toInt + (texts.map wholeValue).sum := by
  induction texts generalizing sum with
  | nil =>
    rw [List.map_nil, runsInWords_nil_iff, Decimal.word?_toInt, List.foldl_nil, int.injEq,
      List.sum_nil, add_zero, Int64.toInt_inj]
    exact ⟨fun same => ⟨rfl, same.symm⟩, fun held => held.2.symm⟩
  | cons text texts ih =>
    obtain ⟨word, words⟩ := List.forall_mem_cons.mp words
    obtain ⟨m, read, value⟩ := exists_wholeValue_eq word
    have step : (int sum).add text = addWord sum m := by
      simp only [add, read]
    rw [List.foldl_cons, step, addWord, Decimal.addWords?, List.map_cons, runsInWords_cons_iff,
      List.sum_cons, value, Decimal.word?_toInt, Option.isSome_some, ← add_assoc]
    cases total : Decimal.word? (sum.toInt + m.toInt) with
    | some next =>
      have same := Decimal.toInt_of_word?_eq_some total
      simp only [ih words, same, true_and]
    | none =>
      obtain ⟨y, float⟩ := exists_foldl_add_float (Decimal.ofWord sum + Decimal.ofWord m) texts
      simp only [float]
      constructor
      · rintro ⟨⟩
      · rintro ⟨⟨-, inside⟩, -⟩
        have start := inside.start
        rw [total] at start
        cases start

theorem ofTexts_eq_int_iff {n : Int64} {texts : List String} (filled : texts ≠ [])
    (words : ∀ text ∈ texts, (Decimal.readWord? text.toList).isSome) :
    ofTexts texts = int n ↔
      RunsInWords 0 (texts.map wholeValue) ∧ n.toInt = (texts.map wholeValue).sum := by
  obtain ⟨text, texts, rfl⟩ := List.exists_cons_of_ne_nil filled
  obtain ⟨word, words⟩ := List.forall_mem_cons.mp words
  obtain ⟨m, read, value⟩ := exists_wholeValue_eq word
  have opened : ofText text = int m := by
    rw [ofText, Cell.infer, read]
  have zero : (Decimal.word? 0).isSome := rfl
  rw [ofTexts, List.foldl_cons, add, opened, foldl_add_int_iff words, List.map_cons,
    runsInWords_cons_iff, List.sum_cons, value, zero_add]
  exact and_congr_left fun _ => (and_iff_right zero).symm

end Total

namespace Group

theorem toCell_columnTotal_eq_int_iff {rows : List Row} {column : Nat} {n : Int64}
    (filled : rows ≠ [])
    (words : ∀ row ∈ rows, (Decimal.readWord? (textAt row column).toList).isSome) :
    (columnTotal rows column).toCell = .int n ↔
      Total.RunsInWords 0 (rows.map fun row => Total.wholeValue (textAt row column)) ∧
        n.toInt = (rows.map fun row => Total.wholeValue (textAt row column)).sum := by
  have read : ∀ text ∈ rows.map (textAt · column), (Decimal.readWord? text.toList).isSome := by
    intro text member
    obtain ⟨row, known, rfl⟩ := List.mem_map.mp member
    exact words row known
  have total := Total.ofTexts_eq_int_iff (n := n) (mt List.map_eq_nil_iff.mp filled) read
  rw [← columnTotal_eq_ofTexts, List.map_map] at total
  rw [← Function.comp_def Total.wholeValue, ← total]
  cases columnTotal rows column <;> simp [Total.toCell]

end Group

namespace Table

/-- Where a column of a group holds words whose sum is a word, the total is that sum just when the
running sums are words too, in the order of the rows. It is the sum in every order of these rows
just when the positive numbers together are a word, and the negative ones together. -/
theorem group_sums_words_iff {grouping : Grouping} {table : Table} {key : String}
    {place index column : Nat} {n : Int64}
    (known : (table.joinedKeys grouping)[place]? = some key)
    (value : (table.groupValues grouping)[index]? = some column)
    (words : ∀ row ∈ (table.onlyKey grouping key).rows,
      (Decimal.readWord? (Group.textAt row column).toList).isSome)
    (sum : n.toInt = ((table.onlyKey grouping key).rows.map fun row =>
      Total.wholeValue (Group.textAt row column)).sum) (joiner : String) :
    let rows := (table.onlyKey grouping key).rows
    let number (row : Row) : Int := Total.wholeValue (Group.textAt row column)
    let group := Group.ofRows (table.groupKeys grouping) (table.groupValues grouping) rows
    (table.group grouping joiner).rows[place]? = some (group.row grouping joiner) ∧
    (grouping.folds = false →
      (group.row grouping joiner)[(table.groupKeys grouping).length + index]? =
        group.totals[index]?.map Total.toCell) ∧
    (group.totals[index]?.map Total.toCell = some (.int n) ↔
      Total.RunsInWords 0 (rows.map number)) ∧
    ((∀ others : List Row, others.Perm rows → (Group.columnTotal others column).toCell = .int n) ↔
      (Decimal.word? ((rows.filter (0 ≤ number ·)).map number).sum).isSome ∧
      (Decimal.word? ((rows.filter (number · < 0)).map number).sum).isSome) := by
  intro rows number group
  have filled : rows ≠ [] := rows_onlyKey_ne_nil (List.mem_of_getElem? known)
  have total : group.totals[index]? = some (Group.columnTotal rows column) := by
    simp only [group, Group.ofRows_eq, List.getElem?_map, value, Option.map_some]
  have summed {others : List Row} (permuted : others.Perm rows) :
      (Group.columnTotal others column).toCell = .int n ↔
        Total.RunsInWords 0 (others.map number) := by
    have filledToo : others ≠ [] := fun none => filled (none ▸ permuted).nil_eq.symm
    rw [Group.toCell_columnTotal_eq_int_iff filledToo
      fun row member => words row (permuted.mem_iff.mp member)]
    exact and_iff_left (sum.trans (permuted.map number).sum_eq.symm)
  refine ⟨?row, ?shown, ?here, ?everywhere⟩
  case row =>
    rw [rows_group_eq_map_joinedKeys, List.getElem?_map, known, Option.map_some]
  case shown =>
    intro plain
    rw [total, Option.map_some]
    exact Group.getElem?_row_ofRows plain joiner filled value
  case here =>
    rw [total, Option.map_some, Option.some_inj]
    exact summed (.refl rows)
  case everywhere =>
    rw [← Total.forall_perm_runsInWords_iff]
    exact forall_congr' fun others => imp_congr_right summed

/-- Numbers that together are the largest word and are not all positive, in a group of their own. -/
theorem group_sums_words_iff_largest :
    let grouping : Grouping := { keys := .ofIndices [1], counts := true }
    let table : Table := { labels := [], rows := [[.text "-5", .text "a"], [.text "x", .text "b"],
      [.text "9223372036854775807", .text "a"], [.text "+05", .text "a"]] }
    let rows := (table.onlyKey grouping "a").rows
    let number (row : Row) : Int := Total.wholeValue (Group.textAt row 0)
    let group := Group.ofRows (table.groupKeys grouping) (table.groupValues grouping) rows
    (table.joinedKeys grouping)[0]? = some "a" ∧ (table.groupValues grouping)[0]? = some 0 ∧
    (∀ row ∈ rows, (Decimal.readWord? (Group.textAt row 0).toList).isSome) ∧
    Int64.maxValue.toInt = (rows.map number).sum ∧
    (table.group grouping ",").rows[0]? = some (group.row grouping ",") ∧
    (group.row grouping ",")[1]? = some (.int Int64.maxValue) ∧
    ¬∀ others : List Row, others.Perm rows →
      (Group.columnTotal others 0).toCell = .int Int64.maxValue := by
  intro grouping table rows number group
  have known : (table.joinedKeys grouping)[0]? = some "a" := by decide +kernel
  have value : (table.groupValues grouping)[0]? = some 0 := by decide +kernel
  have words : ∀ row ∈ rows, (Decimal.readWord? (Group.textAt row 0).toList).isSome := by
    decide +kernel
  have sum : Int64.maxValue.toInt = (rows.map number).sum := by decide +kernel
  obtain ⟨row, shown, here, everywhere⟩ := group_sums_words_iff known value words sum ","
  refine ⟨known, value, words, sum, row, ?_, ?_⟩
  · exact (shown rfl).trans (here.mpr (by decide +kernel))
  · intro always
    exact absurd (everywhere.mp always) (by decide +kernel)

/-- A sum that leaves the words on the way is not the sum of the numbers, and in another order of
the rows it is. -/
theorem group_sum_leaves_words :
    let grouping : Grouping := { keys := .ofIndices [0] }
    let table : Table := { labels := [], rows := [
      [.text "a", .text "9223372036854775807"], [.text "a", .text "1"], [.text "a", .text "-1"]] }
    let rows : List Row := [
      [.text "a", .text "9223372036854775807"], [.text "a", .text "-1"], [.text "a", .text "1"]]
    (∀ row ∈ table.rows, (Decimal.readWord? (Group.textAt row 1).toList).isSome) ∧
    Int64.maxValue.toInt =
      (table.rows.map fun row => Total.wholeValue (Group.textAt row 1)).sum ∧
    (table.group grouping ",").rows.map (·.map Cell.render) = [["a", "9223372036854775808"]] ∧
    rows.Perm table.rows ∧
    ((table.withRows rows).group grouping ",").rows.map (·.map Cell.render) =
      [["a", "9223372036854775807"]] := by
  refine ⟨by decide +kernel, by decide +kernel, by decide +kernel, ?_, by decide +kernel⟩
  exact (List.Perm.swap _ _ _).cons _

end Table

end Tabular
