import Tabular.Proofs.Decimal.ReadBack
import Tabular.Proofs.Expr.LiteralText
import Tabular.Proofs.Table.RunningSums

/-!
# Calculated sums

A formula adds numbers as floats. So the sum of two words that a formula shows is rounded to 53 bits
three times: both words before they are added, and their sum. Grouping adds the same words exactly.
-/

namespace Tabular

namespace Decimal

open Float.Model
open Float.Model.UnpackedFloat (Sign)

variable {x : Float} {q : ℚ}

/-- A float below nine quadrillions in magnitude has all its bits in front of the point at most. -/
theorem Denotes.abs_lt (denoted : Denotes x q) (small : x.abs < 9000000000000000) :
    |q| < 2 ^ 53 := by
  have top : (9000000000000000 : Float) =
      .ofModel (pack (.finite .positive 9000000000000000 0 (by decide))) := rfl
  have abs (m : Float.Model) : (Float.ofModel m).abs = .ofModel (pack m.unpack.abs) := rfl
  have below {m n : Float.Model} (less : Float.ofModel m < Float.ofModel n) :
      m.unpack.compare n.unpack = some .lt :=
    beq_iff_eq.mp (of_decide_eq_true less)
  cases denoted with
  | zero => rw [abs_zero]; positivity
  | @finite sign mantissa exponent positive low high least most =>
    rw [abs_signed]
    rw [top, abs, unpack_pack positive sign low high least most] at small
    have order := below small
    have magnitude : UnpackedFloat.abs (.finite sign mantissa exponent positive) =
        .finite .positive mantissa exponent positive := rfl
    rw [magnitude, unpack_pack positive .positive low high least most,
      unpack_pack _ .positive (by decide) (by decide) (by decide) (by decide)] at order
    have first : (compare exponent 0).then (compare mantissa 9000000000000000) = .lt :=
      Option.some.inj order
    have whole : exponent ≤ 0 := by
      by_contra! more
      rw [compare_gt_iff_gt.mpr more] at first
      cases first
    have bits : (mantissa : ℚ) < 2 ^ 53 := by exact_mod_cast high
    have unit : (0 : ℚ) < 2 ^ exponent := zpow_pos two_pos _
    rw [abs_of_nonneg (mul_nonneg (Nat.cast_nonneg _) unit.le)]
    exact (mul_le_of_le_one_right (Nat.cast_nonneg _)
      (zpow_le_one_of_nonpos₀ one_le_two whole)).trans_lt bits

end Decimal

namespace Scalar

variable {x : Float} {n : Int}

theorem render_toCell_number (denoted : Decimal.Denotes x n) :
    (toCell (.number x)).render = Decimal.intText n := by
  rw [toCell]
  cases small : smallWord? x with
  | some w =>
    unfold smallWord? at small
    split at small
    · rename_i both
      rw [Bool.and_eq_true, decide_eq_true_eq] at both
      have bits := denoted.abs_lt both.2
      have bits : |n| < 2 ^ 53 := by exact_mod_cast bits
      obtain rfl := Option.some.inj small
      have least := (abs_lt.mp bits).1
      have most := (abs_lt.mp bits).2
      have word : (Decimal.toWord x).toInt = n := by
        rw [Decimal.toWord_eq denoted.value?, Decimal.truncated_intCast, Decimal.toInt_nearestWord]
        omega
      exact congrArg Decimal.intText word
    · cases small
  | none =>
    apply Decimal.twoPlaces_eq_intText denoted
    rintro rfl
    obtain ⟨sign, rfl⟩ := (Int.cast_zero (R := ℚ) ▸ denoted).exists_eq_zero
    cases sign with
    | positive => exact absurd small (by decide +kernel)
    | negative => exact absurd small (by decide +kernel)

theorem exists_ofCell_eq_number {cell : Cell} {w : Int64} (word : cell.word? = some w)
    (exact : ∀ x, cell ≠ .float x) :
    ∃ x, ofCell cell = .number x ∧ Decimal.Denotes x (Decimal.rounded w.toInt) := by
  cases cell with
  | int =>
    cases word
    exact ⟨_, rfl, Decimal.denotes_ofWord w⟩
  | float x => exact absurd rfl (exact x)
  | text s =>
    obtain ⟨x, read, denoted⟩ := Decimal.exists_readFinite?_of_readWord? word
    refine ⟨x, ?_, denoted⟩
    rw [ofCell, read]
  | set | structured => cases word

end Scalar

namespace Formula

def columnSum : Formula :=
  ⟨"[0]+[1]", .binary .add (.var "col0") (.var "col1"), [0, 1]⟩

theorem read_columnSum : read "[0]+[1]" = .ok columnSum :=
  eq_ok_of_toOption (by decide +kernel)

theorem bindings_columnName {formula : Formula} {row : Row} {column : Nat} {cell : Cell}
    (known : formula.columns.find? (columnName · == columnName column) = some column)
    (shown : row[column]? = some cell) :
    formula.bindings row (columnName column) = some (Scalar.ofCell cell) := by
  simp only [bindings, known, Option.bind_eq_bind, Option.bind_some, shown]
  rfl

theorem value_columnSum {row : Row} {left right : Cell} {x y : Float}
    (first : row[0]? = some left) (second : row[1]? = some right)
    (leftNumber : Scalar.ofCell left = .number x) (rightNumber : Scalar.ofCell right = .number y) :
    columnSum.value row = (Scalar.number (x + y)).toCell := by
  have leftBound : columnSum.bindings row "col0" = some (.ofCell left) :=
    @bindings_columnName columnSum row 0 left (by decide +kernel) first
  have rightBound : columnSum.bindings row "col1" = some (.ofCell right) :=
    @bindings_columnName columnSum row 1 right (by decide +kernel) second
  have sum : columnSum.expr.eval (columnSum.bindings row) = .ok (.number (x + y)) := by
    simp only [columnSum, Expr.eval] at leftBound rightBound ⊢
    rw [leftBound, rightBound, leftNumber, rightNumber]
    rfl
  rw [value, sum]

end Formula

namespace Group

theorem columnTotal_word {row : Row} {column : Nat} {w : Int64}
    (read : Decimal.readWord? (textAt row column).toList = some w) :
    columnTotal [row] column = .int w := by
  rw [columnTotal_singleton, Total.ofText, Cell.infer, read]

end Group

namespace Table

variable {grouping : Grouping} {table : Table} {row : Row} {left right : Cell} {a b c : Int64}

/-- The words of a row are added up exactly, if they are folded and their sum is a word. -/
theorem group_folds_words (joiner : String) (folds : grouping.folds = true)
    (rows : table.rows = [row]) (values : table.groupValues grouping = [0, 1])
    (first : Decimal.readWord? (Group.textAt row 0).toList = some a)
    (second : Decimal.readWord? (Group.textAt row 1).toList = some b)
    (sum : c.toInt = a.toInt + b.toInt) :
    (table.group grouping joiner).rows.map (·[(table.groupKeys grouping).length]?) =
      [some (.int c)] := by
  have one : Group.collect (table.groupKeys grouping) (table.groupValues grouping) table.rows =
      [(Group.joinedKey (table.groupKeys grouping) row,
        Group.ofRows (table.groupKeys grouping) (table.groupValues grouping) [row])] := by
    rw [rows]
    apply Group.collect_eq_singleton (List.cons_ne_nil _ _)
    intro other member
    rw [List.mem_singleton.mp member]
  have total : Decimal.addWords? a b = some c := by
    rw [Decimal.addWords?, ← sum, Decimal.word?_toInt]
  rw [rows_group, one, List.map_singleton, List.map_singleton,
    Group.getElem?_row_ofRows_of_folds folds joiner (List.cons_ne_nil _ _), values]
  simp only [List.map_cons, List.map_nil, Group.columnTotal_word first,
    Group.columnTotal_word second, Total.toCell, Group.fold, List.foldl_cons, List.foldl_nil,
    Group.foldCells, Total.addWord, total]

end Table

theorem Cell.readWord?_render {cell : Cell} {w : Int64} (word : cell.word? = some w)
    (exact : ∀ x, cell ≠ .float x) : Decimal.readWord? cell.render.toList = some w := by
  cases cell with
  | int =>
    cases word
    exact Decimal.readWord?_wordText w
  | float x => exact absurd rfl (exact x)
  | text => exact word
  | set | structured => cases word

namespace Formula

variable {grouping : Grouping} {table : Table} {row : Row} {left right : Cell} {a b c : Int64}

/-- Where two columns hold words or texts of words, and their sum is a word too, grouping them into
one cell adds them exactly. The formula for the sum shows the float nearest to the sum of the floats
nearest to the words. So the two agree just where that is the sum, as it is for words of 53 bits. -/
theorem sum_agrees_with_group_iff (joiner : String) (folds : grouping.folds = true)
    (rows : table.rows = [row]) (values : table.groupValues grouping = [0, 1])
    (first : row[0]? = some left) (second : row[1]? = some right) (leftWord : left.word? = some a)
    (rightWord : right.word? = some b) (exact : ∀ x, left ≠ .float x ∧ right ≠ .float x)
    (sum : c.toInt = a.toInt + b.toInt) :
    ∃ formula, read "[0]+[1]" = .ok formula ∧
      (table.group grouping joiner).rows.map (·[(table.groupKeys grouping).length]?) =
        [some (.int c)] ∧
      (∃ n : Int, Decimal.rounded (Decimal.rounded a.toInt + Decimal.rounded b.toInt) = n ∧
        (formula.value row).render = Decimal.intText n) ∧
      ((formula.value row).render = (Cell.int c).render ↔
        Decimal.rounded (Decimal.rounded a.toInt + Decimal.rounded b.toInt) = c.toInt) ∧
      (|a.toInt| ≤ 2 ^ 53 → |b.toInt| ≤ 2 ^ 53 → |c.toInt| ≤ 2 ^ 53 →
        (formula.value row).render = (Cell.int c).render) := by
  have leftExact := fun x => (exact x).1
  have rightExact := fun x => (exact x).2
  have leftText : Decimal.readWord? (Group.textAt row 0).toList = some a := by
    rw [Group.textAt, first]
    exact Cell.readWord?_render leftWord leftExact
  have rightText : Decimal.readWord? (Group.textAt row 1).toList = some b := by
    rw [Group.textAt, second]
    exact Cell.readWord?_render rightWord rightExact
  obtain ⟨x, leftNumber, leftDenoted⟩ := Scalar.exists_ofCell_eq_number leftWord leftExact
  obtain ⟨y, rightNumber, rightDenoted⟩ := Scalar.exists_ofCell_eq_number rightWord rightExact
  obtain ⟨n, rounds, denoted⟩ := leftDenoted.add_words rightDenoted
  have shown : (columnSum.value row).render = Decimal.intText n := by
    rw [value_columnSum first second leftNumber rightNumber, Scalar.render_toCell_number denoted]
  have agrees : (columnSum.value row).render = (Cell.int c).render ↔ n = c.toInt := by
    rw [shown]
    exact Decimal.intText_inj
  refine ⟨columnSum, read_columnSum, ?grouped, ⟨n, rounds, shown⟩, ?iff, ?small⟩
  case grouped => exact Table.group_folds_words joiner folds rows values leftText rightText sum
  case iff => rw [agrees, rounds, Int.cast_inj]
  case small =>
    intro leftSmall rightSmall small
    rw [Decimal.rounded_intCast leftSmall, Decimal.rounded_intCast rightSmall, ← Int.cast_add,
      ← sum, Decimal.rounded_intCast small, Int.cast_inj] at rounds
    exact agrees.mpr rounds.symm

/-- The largest word, and a sum whose float lies beyond all words. -/
theorem sum_agrees_with_group_iff_largest :
    let grouping : Grouping := { keys := .ofIndices [2], folds := true }
    let row : Row := [.text "+9223372036854775806", .int 1, .text "a"]
    let table : Table := { labels := [], rows := [row] }
    table.groupValues grouping = [0, 1] ∧
    Cell.word? (.text "+9223372036854775806") = some 9223372036854775806 ∧
    Int64.maxValue.toInt = (9223372036854775806 : Int64).toInt + (1 : Int64).toInt ∧
    ∃ formula, read "[0]+[1]" = .ok formula ∧
      (table.group grouping ",").rows.map (·[1]?) = [some (.int Int64.maxValue)] ∧
      (formula.value row).render = "9223372036854775808" ∧
      Decimal.rounded (Decimal.rounded (9223372036854775806 : Int64).toInt +
        Decimal.rounded (1 : Int64).toInt) ≠ Int64.maxValue.toInt := by
  intro grouping row table
  have values : table.groupValues grouping = [0, 1] := by decide +kernel
  have word : Cell.word? (.text "+9223372036854775806") = some 9223372036854775806 := by
    decide +kernel
  have sum : Int64.maxValue.toInt = (9223372036854775806 : Int64).toInt + (1 : Int64).toInt := by
    decide +kernel
  obtain ⟨formula, known, grouped, -, agrees, -⟩ := sum_agrees_with_group_iff "," rfl
    (show table.rows = [row] from rfl) values rfl rfl word
    (show Cell.word? (.int 1) = some 1 from rfl) (fun x => ⟨Cell.noConfusion, Cell.noConfusion⟩) sum
  obtain rfl : columnSum = formula := Except.ok.inj (read_columnSum.symm.trans known)
  have shown : (columnSum.value row).render = "9223372036854775808" := by decide +kernel
  refine ⟨values, word, sum, columnSum, known, grouped, shown, fun same => ?_⟩
  rw [agrees.mpr same] at shown
  exact absurd shown (by decide +kernel)

/-- A word that is no float is not shown as the sum of itself and zero. -/
theorem sum_differs_from_group :
    let grouping : Grouping := { keys := .ofIndices [2], folds := true }
    let row : Row := [.text "9007199254740993", .text "0", .text "a"]
    let table : Table := { labels := [], rows := [row] }
    ∃ formula, read "[0]+[1]" = .ok formula ∧
      (table.group grouping ",").rows.map (·.map Cell.render) = [["a", "9007199254740993"]] ∧
      (formula.value row).render = "9007199254740992" := by
  intro grouping row table
  exact ⟨columnSum, read_columnSum, by decide +kernel, by decide +kernel⟩

end Formula

end Tabular
