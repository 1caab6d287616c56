import Tabular.Proofs.Expr.Completeness
import Tabular.Proofs.Expr.FilledSlots

/-!
# Placeholders

A placeholder is one operand by the grammar of formulas. But slots are filled with names in the text
of a formula before it is read, and so a placeholder is one operand, and its value is the cell of
its column, only where no slot stands next to a slot or to a character of a name, and where no name
that is written is also the name of a column.
-/

namespace Tabular

theorem Expr.mem_firsts_iff {α : Type} [DecidableEq α] {a : α} {items : List α} :
    a ∈ Expr.firsts items ↔ a ∈ items := by
  suffices all : ∀ known : List α, a ∈ items.foldl
      (fun known item => if item ∈ known then known else known ++ [item]) known ↔
        a ∈ known ∨ a ∈ items by
    simpa [Expr.firsts] using all []
  induction items with
  | nil => simp
  | cons item items ih =>
    intro known
    rw [List.foldl_cons, ih, List.mem_cons]
    split
    · grind
    · simp [or_assoc]

namespace Formula

open Tabular.Expr (Token Piece Digits Blank Derives SlotsApart)

variable {source : String} {formula : Formula} {tokens : List Token} {tree : Expr}

theorem isQuote_of_mem_named (bare : ∀ c ∈ source.toList, Expr.isQuote c = false) :
    ∀ c ∈ (named source).toList, Expr.isQuote c = false := by
  intro c member
  rcases Expr.mem_fillChars member with known | ⟨body, known⟩
  · exact bare c known
  · exact isQuote_of_mem_fill body c known

theorem flatMap_slotText_pieces (source : String) :
    (pieces source).flatMap (Piece.text Expr.slotText) = source.toList :=
  Expr.flatMap_text_slotText 0 source.toList

theorem mem_slots_iff {body : List Char} {pieces : List Piece} :
    body ∈ Expr.slots pieces ↔ .slot body ∈ pieces := by
  rw [Expr.slots, List.mem_filterMap]
  constructor
  · rintro ⟨piece, member, slot⟩
    cases piece with
    | char c => cases slot
    | slot other =>
      obtain rfl : other = body := Option.some.inj slot
      exact member
  · exact fun member => ⟨.slot body, member, rfl⟩

theorem readable_of_read (taken : read source = .ok formula) : Readable (pieces source) := by
  intro body member
  have slot : body ∈ Expr.slots (pieces source) := mem_slots_iff.mpr member
  unfold read at taken
  dsimp only at taken
  split at taken
  · cases taken
  · rename_i none
    have readable := List.find?_eq_none.mp none body slot
    rw [Option.isNone_iff_eq_none] at readable
    obtain ⟨n, found⟩ := Option.ne_none_iff_exists'.mp readable
    obtain ⟨digits, rfl, fits⟩ := digits_of_readIndex? (Expr.inside_of_mem_slots slot) found
    exact ⟨digits, fits⟩

theorem read_of_readable {e : Expr} (readable : Readable (pieces source))
    (accepted : Expr.read (named source) = .ok e) :
    read source = .ok ⟨source, e, Expr.firsts (columnsIn (pieces source))⟩ := by
  have none : (Expr.slots (pieces source)).find? (fun body => (Decimal.readIndex? body).isNone) =
      .none := by
    refine List.find?_eq_none.mpr fun body member => ?_
    obtain ⟨some, fits⟩ := readable body (mem_slots_iff.mp member)
    simp [readIndex?_of_digits some fits]
  unfold read
  dsimp only
  rw [none]
  simp only [accepted]
  rfl

theorem Spells.cut (spells : Spells source.toList tokens) (derives : Derives .ternary tokens tree)
    (bare : ∀ c ∈ source.toList, Expr.isQuote c = false) : Cut (pieces source) tokens := by
  obtain ⟨rest, starts, blank⟩ := spells
  exact starts.cut blank derives.known bare

theorem Cut.read (cut : Cut (pieces source) tokens) (derives : Derives .ternary tokens tree) :
    read source =
      .ok ⟨source, tree.rename plainName, Expr.firsts (columnsIn (pieces source))⟩ := by
  refine read_of_readable cut.readable (Expr.read_eq_ok_iff_readChars.mpr ?_)
  rw [toList_named]
  exact Expr.readChars_complete cut.filled derives.map_rename

theorem exists_spells_of_read (bare : ∀ c ∈ source.toList, Expr.isQuote c = false)
    (taken : read source = .ok formula) (apart : SlotsApart (pieces source)) :
    ∃ tokens tree, Spells source.toList tokens ∧ Derives .ternary tokens tree := by
  have accepted := Expr.read_eq_ok_iff_readChars.mp (read_eq_ok taken).1
  obtain ⟨tokens, ⟨rest, starts, blank⟩, derives⟩ := Expr.readChars_sound accepted
  obtain ⟨originals, cut, rfl⟩ := exists_cut (readable_of_read taken) apart starts
    derives.known derives.separate (isQuote_of_mem_named bare) blank (toList_named source).symm
  have spells := cut.spells
  rw [flatMap_slotText_pieces] at spells
  obtain ⟨tree, derives, -⟩ := derives.of_map_rename
  exact ⟨originals, tree, spells, derives⟩

theorem value_eq_resultCell (row : Row) :
    formula.value row = resultCell (formula.expr.eval (formula.bindings row)) := by
  unfold value
  cases formula.expr.eval (formula.bindings row) <;> rfl

/-- A placeholder has the value of its cell, and a name that is written has none, unless it is the
name of a column. -/
theorem bindings_plainName {name : String} (row : Row)
    (known : columnOf? name = none ∨ ∃ column ∈ formula.columns, name = slotName column)
    (apart : ∀ column ∈ formula.columns, columnName column ≠ name) :
    formula.bindings row (plainName name) = cells row name := by
  rcases known with plain | ⟨column, member, rfl⟩
  · have missing : formula.columns.find? (columnName · == name) = none :=
      List.find?_eq_none.mpr fun column member => by simpa using apart column member
    simp [bindings, cells, plainName, plain, missing]
  · have found : formula.columns.find? (columnName · == columnName column) = some column := by
      cases first : formula.columns.find? (columnName · == columnName column) with
      | none => exact absurd (beq_self_eq_true _) (List.find?_eq_none.mp first column member)
      | some other =>
        have same : columnName other = columnName column := by simpa using List.find?_some first
        rw [columnName_injective same]
    simp [bindings, cells, plainName_slotName, columnOf?_slotName, found]

theorem Cut.value (cut : Cut (pieces source) tokens) (derives : Derives .ternary tokens tree)
    (expr : formula.expr = tree.rename plainName)
    (columns : formula.columns = Expr.firsts (columnsIn (pieces source)))
    (apart : ∀ column ∈ formula.columns, columnName column ∉ tree.occurrences) (row : Row) :
    formula.value row = resultCell ((tree.eval (cells row)).mapError (·.rename plainName)) := by
  have same : tree.eval (formula.bindings row ∘ plainName) = tree.eval (cells row) := by
    refine Expr.eval_congr fun name occurs => bindings_plainName row ?_ ?_
    · rw [derives.occurrences_eq] at occurs
      refine (cut.columnOf?_occurrence occurs).imp_right ?_
      rintro ⟨column, member, rfl⟩
      exact ⟨column, columns ▸ Expr.mem_firsts_iff.mpr member, rfl⟩
    · rintro column member rfl
      exact apart column member occurs
  rw [value_eq_resultCell, expr, Expr.eval_rename, same]

/-- A formula without quotes is read, and its slots stand apart, if and only if it is spelled as a
phrase of the grammar with placeholders. If moreover no name that is written in it is that of one of
its columns, its value for a row is the value of the tree of the phrase, where every placeholder is
the cell of its column, and an error about a missing cell has the name of the column. -/
theorem read_iff_spells_of_slotsApart (source : String)
    (bare : ∀ c ∈ source.toList, Expr.isQuote c = false) :
    ((∃ formula, read source = .ok formula) ∧ SlotsApart (pieces source) ↔
      ∃ tokens tree, Spells source.toList tokens ∧ Derives .ternary tokens tree) ∧
    ∀ tokens tree, Spells source.toList tokens → Derives .ternary tokens tree →
      ∃ formula, read source = .ok formula ∧
        ((∀ column ∈ formula.columns, columnName column ∉ tree.occurrences) →
          ∀ row, formula.value row =
            resultCell ((tree.eval (cells row)).mapError (·.rename plainName))) := by
  refine ⟨⟨?spelled, ?apart⟩, ?value⟩
  case spelled =>
    rintro ⟨⟨formula, taken⟩, apart⟩
    exact exists_spells_of_read bare taken apart
  case apart =>
    rintro ⟨tokens, tree, spells, derives⟩
    have cut := spells.cut derives bare
    exact ⟨⟨_, cut.read derives⟩, cut.slotsApart derives.separate⟩
  case value =>
    intro tokens tree spells derives
    have cut := spells.cut derives bare
    exact ⟨_, cut.read derives, cut.value derives rfl rfl⟩

/-- Two placeholders between blanks, one of them with leading zeros. -/
theorem read_iff_spells_of_slotsApart_swapped :
    let source := " [001]+ [0]"
    let tokens : List Token :=
      [.operand (.var (slotName 1)), .mark "+", .operand (.var (slotName 0))]
    let tree : Expr := .binary .add (.var (slotName 1)) (.var (slotName 0))
    (∀ c ∈ source.toList, Expr.isQuote c = false) ∧
    Spells source.toList tokens ∧ Derives .ternary tokens tree ∧
    ∃ formula, read source = .ok formula ∧
      (∀ column ∈ formula.columns, columnName column ∉ tree.occurrences) ∧
      formula.value [.text "a", .text "b"] = .text "ba" := by
  intro source tokens tree
  have bare : ∀ c ∈ " [001]+ [0]".toList, Expr.isQuote c = false :=
    Expr.forall_isQuote_eq_false rfl
  have blank : Blank [' '] := by simp [Blank]
  have one : Lexeme ['[', '0', '0', '1', ']'] (.operand (.var (slotName 1))) :=
    .column (show Digits ['0', '0', '1'] by simp [Digits]) (by decide)
  have plus : Lexeme ['+'] (.mark "+") := .plain (@Expr.Lexeme.mark "+")
  have zero : Lexeme ['[', '0', ']'] (.operand (.var (slotName 0))) :=
    .column (show Digits ['0'] by simp [Digits]) (by decide)
  have spells : Spells " [001]+ [0]".toList tokens :=
    ⟨[], .cons blank one (.cons Expr.blank_nil plus (.cons blank zero (@Starts.nil []))),
      Expr.blank_nil⟩
  have derives : Derives .ternary tokens tree := derives_add _ _
  obtain ⟨formula, taken, value⟩ :=
    (read_iff_spells_of_slotsApart source bare).2 tokens tree spells derives
  have columns : formula.columns = [1, 0] := by
    have found : (read source).toOption.map Formula.columns = some [1, 0] := by decide +kernel
    simpa [taken, Except.toOption] using found
  have apart : ∀ column ∈ formula.columns, columnName column ∉ tree.occurrences := by
    rw [columns]
    decide +kernel
  exact ⟨bare, spells, derives, formula, taken, apart, value apart _⟩

/-- A digit behind a placeholder makes it another column, although no phrase has an operand behind
an operand; and a name that is written has the value of the column of that name. -/
theorem read_fuses_placeholders :
    (∃ formula, read "[1]2+[12]" = .ok formula ∧
      formula.expr = .binary .add (.var (columnName 12)) (.var (columnName 12)) ∧
      ¬∃ tokens tree, Spells "[1]2+[12]".toList tokens ∧ Derives .ternary tokens tree) ∧
    ∃ formula tokens tree, read "[0]+col0" = .ok formula ∧
      Spells "[0]+col0".toList tokens ∧ Derives .ternary tokens tree ∧
      formula.value [.text "a"] = .text "aa" ∧
      resultCell (tree.eval (cells [.text "a"])) = .text "no value bound to 'col0'" := by
  constructor
  · refine ⟨⟨"[1]2+[12]", .binary .add (.var "col12") (.var "col12"), [1, 12]⟩,
      eq_ok_of_toOption (by decide +kernel), rfl, ?_⟩
    rintro ⟨tokens, tree, spells, derives⟩
    have apart := (spells.cut derives (Expr.forall_isQuote_eq_false rfl)).slotsApart
      derives.separate
    exact absurd apart (by decide +kernel)
  · have zero : Lexeme ['[', '0', ']'] (.operand (.var (slotName 0))) :=
      .column (show Digits ['0'] by simp [Digits]) (by decide)
    have plus : Lexeme ['+'] (.mark "+") := .plain (@Expr.Lexeme.mark "+")
    have name : Lexeme ['c', 'o', 'l', '0'] (.operand (.var "col0")) :=
      .plain (lexeme_columnName 0)
    refine ⟨⟨"[0]+col0", .binary .add (.var "col0") (.var "col0"), [0]⟩, _, _,
      eq_ok_of_toOption (by decide +kernel), ?_, derives_add (.var (slotName 0)) (.var "col0"),
      ?_, ?_⟩
    · exact ⟨[], .cons Expr.blank_nil zero (.cons Expr.blank_nil plus
        (.cons Expr.blank_nil name (@Starts.nil []))), Expr.blank_nil⟩
    · rfl
    · rfl

end Formula

end Tabular
