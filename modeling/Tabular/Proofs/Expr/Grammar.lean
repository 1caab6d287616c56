import Mathlib.Data.List.TakeWhile
import Tabular.Expr.Reader

/-!
# The grammar of expressions

A text spells a sequence of tokens, with blanks before each of them and after the last:

* a number is digits, with an optional point and more digits,
* a quoted text has no quote of its own kind inside,
* a name is an ASCII word, where `true` and `false` are truth values,
* every other token is a mark.

The phrases over the tokens, from the loosest:

* `ternary := or ('?' ternary ':' ternary)?`
* `or := and ('||' and)*`
* `and := comparison ('&&' comparison)*`
* `comparison := additive (('==' | '!=' | '<=' | '>=' | '=~' | '!~' | '<' | '>') additive)*`
* `additive := multiplicative (('+' | '-') multiplicative)*`
* `multiplicative := power (('*' | '/' | '%') power)*`
* `power := unary ('**' power)?`
* `unary := ('-' | '!') unary | primary`
* `primary := number | text | name | '(' ternary ')'`
-/

namespace Tabular.Expr

/-- A mark, or an operand by itself with what it stands for. -/
inductive Token where
  | mark (symbol : String)
  | operand (e : Expr)
  deriving DecidableEq, Repr

def Digits (cs : List Char) : Prop :=
  cs ≠ [] ∧ ∀ c ∈ cs, c.isDigit

def Blank (cs : List Char) : Prop :=
  ∀ c ∈ cs, c = ' ' ∨ c = '\t' ∨ c = '\r' ∨ c = '\n'

/-- An ASCII letter or an underscore, and any letters, digits and underscores. -/
def Word (cs : List Char) : Prop :=
  ∃ c more, cs = c :: more ∧ (c.isAlpha ∨ c = '_') ∧ ∀ d ∈ more, d.isAlphanum ∨ d = '_'

/-- How a token is written. -/
inductive Lexeme : List Char → Token → Prop
  | mark {symbol : String} : Lexeme symbol.toList (.mark symbol)
  | whole {digits : List Char} (some : Digits digits) :
      Lexeme digits (.operand (number (Decimal.nearest (Nat.ofDigitChars 10 digits 0) 0)))
  | decimal {digits fraction : List Char} (some : Digits digits) (more : Digits fraction) :
      Lexeme (digits ++ '.' :: fraction)
        (.operand (number (Decimal.nearest (Nat.ofDigitChars 10 (digits ++ fraction) 0)
          (-fraction.length))))
  | quoted {quote : Char} {cs : List Char} (isQuote : quote = '\'' ∨ quote = '"')
      (inside : quote ∉ cs) :
      Lexeme (quote :: cs ++ [quote]) (.operand (text (String.ofList cs)))
  | truth {b : Bool} : Lexeme (toString b).toList (.operand (bool b))
  | name {cs : List Char} (word : Word cs) (other : ∀ b : Bool, cs ≠ (toString b).toList) :
      Lexeme cs (.operand (var (String.ofList cs)))

/-- The text starts with the tokens, each behind blanks, and goes on with the rest. -/
inductive Starts : List Char → List Token → List Char → Prop
  | nil {rest : List Char} : Starts rest [] rest
  | cons {blanks cs text rest : List Char} {token : Token} {tokens : List Token}
      (blank : Blank blanks) (lexeme : Lexeme cs token) (more : Starts text tokens rest) :
      Starts (blanks ++ cs ++ text) (token :: tokens) rest

def Spells (text : List Char) (tokens : List Token) : Prop :=
  ∃ rest, Starts text tokens rest ∧ Blank rest

inductive Phrase where
  | ternary
  | chain (level : Level)
  | power
  | unary
  | primary
  deriving DecidableEq, Repr

def Level.operators : Level → List BinaryOp
  | or => [.or]
  | and => [.and]
  | comparison => [.eq, .ne, .le, .ge, .like, .unlike, .lt, .gt]
  | additive => [.add, .sub]
  | multiplicative => [.mul, .div, .rem]

/-- The operands that the operators of a level stand between. -/
def Level.tighter : Level → Phrase
  | or => .chain .and
  | and => .chain .comparison
  | comparison => .chain .additive
  | additive => .chain .multiplicative
  | multiplicative => .power

/-- Phrases and their trees. Operators of one level group to the left, powers to the right, and
signs and negations bind tighter than powers. -/
inductive Derives : Phrase → List Token → Expr → Prop
  | plain {tokens : List Token} {e : Expr} (operation : Derives (.chain .or) tokens e) :
      Derives .ternary tokens e
  | conditional {asked first second : List Token} {condition yes no : Expr}
      (test : Derives (.chain .or) asked condition) (positive : Derives .ternary first yes)
      (negative : Derives .ternary second no) :
      Derives .ternary (asked ++ .mark "?" :: (first ++ .mark ":" :: second))
        (conditional condition yes no)
  | single {level : Level} {tokens : List Token} {e : Expr}
      (operand : Derives level.tighter tokens e) : Derives (.chain level) tokens e
  | operation {level : Level} {op : BinaryOp} {before after : List Token} {left right : Expr}
      (known : op ∈ level.operators) (chain : Derives (.chain level) before left)
      (operand : Derives level.tighter after right) :
      Derives (.chain level) (before ++ .mark op.symbol :: after) (binary op left right)
  | base {tokens : List Token} {e : Expr} (operand : Derives .unary tokens e) :
      Derives .power tokens e
  | power {before after : List Token} {base exponent : Expr}
      (operand : Derives .unary before base) (more : Derives .power after exponent) :
      Derives .power (before ++ .mark "**" :: after) (binary .pow base exponent)
  | unsigned {tokens : List Token} {e : Expr} (operand : Derives .primary tokens e) :
      Derives .unary tokens e
  | negate {tokens : List Token} {e : Expr} (operand : Derives .unary tokens e) :
      Derives .unary (.mark "-" :: tokens) (unary .negate e)
  | not {tokens : List Token} {e : Expr} (operand : Derives .unary tokens e) :
      Derives .unary (.mark "!" :: tokens) (unary .not e)
  | operand {e : Expr} : Derives .primary [.operand e] e
  | parenthesized {tokens : List Token} {e : Expr} (inner : Derives .ternary tokens e) :
      Derives .primary (.mark "(" :: tokens ++ [.mark ")"]) e

def Phrase.Opens (phrase : Phrase) : Token → Prop
  | .operand _ => True
  | .mark symbol => symbol = "(" ∨ phrase ≠ .primary ∧ (symbol = "-" ∨ symbol = "!")

theorem Phrase.Opens.loosen {phrase other : Phrase} {token : Token} (opens : other.Opens token)
    (loose : phrase ≠ .primary) : phrase.Opens token := by
  cases token with
  | operand => trivial
  | mark symbol => exact opens.imp_right fun ⟨_, sign⟩ => ⟨loose, sign⟩

theorem Derives.exists_first {phrase : Phrase} {tokens : List Token} {e : Expr}
    (derives : Derives phrase tokens e) :
    ∃ token more, tokens = token :: more ∧ phrase.Opens token := by
  induction derives with
  | plain _ ih | single _ ih | base _ ih | unsigned _ ih =>
    obtain ⟨token, more, rfl, opens⟩ := ih
    exact ⟨token, more, rfl, opens.loosen (by simp)⟩
  | conditional _ _ _ ih _ _ | operation _ _ _ ih _ | power _ _ ih _ =>
    obtain ⟨token, more, rfl, opens⟩ := ih
    exact ⟨token, _, rfl, opens.loosen (by simp)⟩
  | negate => exact ⟨_, _, rfl, .inr ⟨by simp, .inl rfl⟩⟩
  | not => exact ⟨_, _, rfl, .inr ⟨by simp, .inr rfl⟩⟩
  | operand => exact ⟨_, _, rfl, trivial⟩
  | parenthesized => exact ⟨_, _, rfl, .inl rfl⟩

theorem isSpace_iff {c : Char} : isSpace c ↔ c = ' ' ∨ c = '\t' ∨ c = '\r' ∨ c = '\n' := by
  simp [isSpace, or_assoc]

theorem blank_nil : Blank [] := by
  simp [Blank]

theorem skipSpace_append {blanks : List Char} (blank : Blank blanks) (cs : List Char) :
    skipSpace (blanks ++ cs) = skipSpace cs :=
  List.dropWhile_append_of_pos fun c member => isSpace_iff.mpr (blank c member)

theorem exists_skipSpace (cs : List Char) :
    ∃ blanks, Blank blanks ∧ cs = blanks ++ skipSpace cs := by
  refine ⟨cs.takeWhile isSpace, fun c member => ?_, List.takeWhile_append_dropWhile.symm⟩
  exact isSpace_iff.mp (List.mem_takeWhile_imp member)

theorem skipSpace_eq_nil_iff {cs : List Char} : skipSpace cs = [] ↔ Blank cs := by
  simp only [skipSpace, List.dropWhile_eq_nil_iff, isSpace_iff, Blank]

theorem length_skipSpace_le (cs : List Char) : (skipSpace cs).length ≤ cs.length :=
  (List.dropWhile_sublist isSpace).length_le

theorem Starts.append {text mid rest : List Char} {tokens more : List Token}
    (starts : Starts text tokens mid) (goesOn : Starts mid more rest) :
    Starts text (tokens ++ more) rest := by
  induction starts with
  | nil => exact goesOn
  | cons blank lexeme _ ih => exact .cons blank lexeme (ih goesOn)

theorem starts_append_iff {text rest : List Char} {tokens more : List Token} :
    Starts text (tokens ++ more) rest ↔ ∃ mid, Starts text tokens mid ∧ Starts mid more rest := by
  refine ⟨fun starts => ?_, fun ⟨_, starts, goesOn⟩ => starts.append goesOn⟩
  induction tokens generalizing text with
  | nil => exact ⟨text, .nil, starts⟩
  | cons token tokens ih =>
    cases starts with
    | cons blank lexeme starts =>
      obtain ⟨mid, starts, goesOn⟩ := ih starts
      exact ⟨mid, .cons blank lexeme starts, goesOn⟩

theorem Starts.length_le {text rest : List Char} {tokens : List Token}
    (starts : Starts text tokens rest) : rest.length ≤ text.length := by
  induction starts with
  | nil => exact Nat.le_refl _
  | cons _ _ _ ih =>
    simp only [List.length_append]
    omega

end Tabular.Expr
