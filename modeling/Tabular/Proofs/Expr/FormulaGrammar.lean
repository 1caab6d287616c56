import Tabular.Formula
import Tabular.Proofs.Decimal.Digits
import Tabular.Proofs.Expr.Boundary
import Tabular.Proofs.Expr.Renaming

/-!
# The grammar of formulas

The grammar of formulas is the one of expressions with one more primary: `[N]`, where `N` are ASCII
digits of an index, stands for the cell of column `N`. In the tree of a formula a column has a name
that no variable has. In the text that is read it has the name of a variable.
-/

namespace Tabular.Formula

open Tabular.Expr (Token Digits Blank Word Derives)

/-- The name of a column in the tree of a formula. No variable that is written has such a name. -/
def slotName (column : Nat) : String :=
  "[" ++ Decimal.natText column ++ "]"

/-- How a token of a formula is written: as in an expression, or as a placeholder. -/
inductive Lexeme : List Char → Token → Prop
  | plain {cs : List Char} {token : Token} (lexeme : Expr.Lexeme cs token) : Lexeme cs token
  | column {digits : List Char} (some : Digits digits)
      (fits : Nat.ofDigitChars 10 digits 0 < Decimal.indexBound) :
      Lexeme (Expr.slotText digits) (.operand (.var (slotName (Nat.ofDigitChars 10 digits 0))))

/-- The text starts with the tokens, each behind blanks, and goes on with the rest. -/
inductive Starts : List Char → List Token → List Char → Prop
  | nil {rest : List Char} : Starts rest [] rest
  | cons {blanks cs text rest : List Char} {token : Token} {tokens : List Token}
      (blank : Blank blanks) (lexeme : Lexeme cs token) (more : Starts text tokens rest) :
      Starts (blanks ++ cs ++ text) (token :: tokens) rest

def Spells (text : List Char) (tokens : List Token) : Prop :=
  ∃ rest, Starts text tokens rest ∧ Blank rest

theorem derives_add (left right : Expr) :
    Derives .ternary [.operand left, .mark "+", .operand right] (.binary .add left right) := by
  have operand (e : Expr) : Derives (.chain .multiplicative) [.operand e] e :=
    .single (.base (.unsigned .operand))
  have sum : Derives (.chain .additive) [.operand left, .mark "+", .operand right]
      (.binary .add left right) :=
    @Derives.operation .additive .add [.operand left] [.operand right] left right (by decide)
      (.single (operand left)) (operand right)
  exact .plain (.single (.single (.single sum)))

def columnOf? (name : String) : Option Nat :=
  match name.toList with
  | '[' :: digits => some (Nat.ofDigitChars 10 digits.dropLast 0)
  | _ => none

def plainName (name : String) : String :=
  (columnOf? name).elim name columnName

/-- Every column is the cell of the row there, and no other name has a value. -/
def cells (row : Row) : Expr.Bindings := fun name => do
  let column ← columnOf? name
  let cell ← row[column]?
  return Scalar.ofCell cell

def resultCell : Expr.Result → Cell
  | .ok value => value.toCell
  | .error error => .text error.message

theorem toList_slotName (column : Nat) :
    (slotName column).toList = '[' :: (Decimal.natChars column ++ [']']) := by
  simp [slotName, Decimal.natText]

theorem columnOf?_slotName (column : Nat) : columnOf? (slotName column) = some column := by
  simp [columnOf?, toList_slotName, Decimal.natChars, Nat.ofDigitChars_ten_toDigits]

theorem columnOf?_eq_none {name : String} (plain : '[' ∉ name.toList) : columnOf? name = none := by
  unfold columnOf?
  split
  · rename_i spelled
    exact absurd (spelled ▸ List.mem_cons_self) plain
  · rfl

theorem plainName_slotName (column : Nat) : plainName (slotName column) = columnName column := by
  rw [plainName, columnOf?_slotName, Option.elim_some]

theorem plainName_eq_self {name : String} (plain : '[' ∉ name.toList) : plainName name = name := by
  rw [plainName, columnOf?_eq_none plain, Option.elim_none]

theorem word_columnName (column : Nat) : Word (columnName column).toList := by
  refine ⟨'c', 'o' :: 'l' :: Decimal.natChars column, ?_, .inl rfl, ?_⟩
  · simp [columnName, Decimal.natText]
  · refine List.forall_mem_cons.mpr ⟨.inl rfl, List.forall_mem_cons.mpr ⟨.inl rfl, ?_⟩⟩
    intro c member
    exact Expr.isNameChar_iff.mp
      (Expr.isNameChar_of_isDigit (Decimal.isDigit_of_mem_natChars member))

theorem columnName_injective : Function.Injective columnName := by
  intro m n same
  refine Decimal.natText_injective (String.toList_inj.mp ?_)
  simpa [columnName] using congrArg String.toList same

theorem columnName_ne_toString (column : Nat) (b : Bool) :
    (columnName column).toList ≠ (toString b).toList := by
  intro same
  have first := congrArg List.head? same
  rw [columnName, String.toList_append] at first
  cases b <;> cases first

theorem lexeme_columnName (column : Nat) :
    Expr.Lexeme (columnName column).toList (.operand (.var (columnName column))) := by
  have lexeme := Expr.Lexeme.name (word_columnName column) (columnName_ne_toString column)
  rwa [String.ofList_toList] at lexeme

theorem rename_eq_self {cs : List Char} {token : Token} (lexeme : Expr.Lexeme cs token)
    (plain : '[' ∉ cs) : token.rename plainName = token := by
  cases lexeme with
  | mark | whole | decimal | quoted | truth => rfl
  | name word other =>
    have same : plainName (String.ofList cs) = String.ofList cs :=
      plainName_eq_self (by rwa [String.toList_ofList])
    rw [Token.rename, Expr.rename, same]

end Tabular.Formula
