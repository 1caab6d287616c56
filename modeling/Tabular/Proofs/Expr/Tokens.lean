import Mathlib.Data.List.Chain
import Tabular.Proofs.Expr.Boundary

/-!
# The tokens of a phrase

The marks of a phrase are a few characters each, none of which a word or a number has, and between
two operands there is always a mark. The variables of the tree are those of the operands.
-/

namespace Tabular.Expr

def isMarkChar (c : Char) : Bool :=
  ['?', ':', '|', '&', '=', '!', '<', '>', '~', '+', '-', '*', '/', '%', '(', ')'].contains c

def Token.Known : Token → Prop
  | .mark symbol => symbol.toList ≠ [] ∧ ∀ c ∈ symbol.toList, isMarkChar c
  | .operand _ => True

def Token.isOperand : Token → Bool
  | .mark _ => false
  | .operand _ => true

/-- No two operands stand next to each other. -/
def Separate (tokens : List Token) : Prop :=
  tokens.IsChain fun left right => left.isOperand = false ∨ right.isOperand = false

def Token.occurrences : Token → List String
  | .mark _ => []
  | .operand e => e.occurrences

theorem known_mark {symbol : String} (filled : symbol.toList.isEmpty = false)
    (marks : symbol.toList.all isMarkChar) : (Token.mark symbol).Known :=
  ⟨List.isEmpty_eq_false_iff.mp filled, List.all_eq_true.mp marks⟩

theorem known_symbol (op : BinaryOp) : (Token.mark op.symbol).Known := by
  cases op <;> exact known_mark rfl rfl

theorem Separate.append_mark {before after : List Token} (front : Separate before)
    (back : Separate after) (symbol : String) : Separate (before ++ .mark symbol :: after) := by
  refine List.isChain_append.mpr ⟨front, List.isChain_cons.mpr ⟨?_, back⟩, ?_⟩
  · exact fun _ _ => .inl rfl
  · intro left _ right first
    obtain rfl := Option.some.inj first
    exact .inr rfl

theorem Separate.mark_cons {after : List Token} (back : Separate after) (symbol : String) :
    Separate (.mark symbol :: after) :=
  Separate.append_mark .nil back symbol

theorem Separate.next {token : Token} {tokens : List Token} (separate : Separate (token :: tokens))
    (operand : token.isOperand) : ∀ other ∈ tokens.head?, other.isOperand = false := by
  intro other first
  exact ((List.isChain_cons.mp separate).1 other first).resolve_left (by simp [operand])

theorem Separate.tail {token : Token} {tokens : List Token}
    (separate : Separate (token :: tokens)) : Separate tokens :=
  (List.isChain_cons.mp separate).2

variable {phrase : Phrase} {tokens : List Token} {e : Expr}

theorem Derives.known (derives : Derives phrase tokens e) : ∀ token ∈ tokens, token.Known := by
  induction derives with
  | plain _ ih | single _ ih | base _ ih | unsigned _ ih => exact ih
  | conditional _ _ _ asked first second =>
    simp only [List.forall_mem_append, List.forall_mem_cons]
    exact ⟨asked, known_mark rfl rfl, first, known_mark rfl rfl, second⟩
  | operation _ _ _ before after =>
    simp only [List.forall_mem_append, List.forall_mem_cons]
    exact ⟨before, known_symbol _, after⟩
  | power _ _ before after =>
    simp only [List.forall_mem_append, List.forall_mem_cons]
    exact ⟨before, known_symbol .pow, after⟩
  | negate _ ih | not _ ih => exact List.forall_mem_cons.mpr ⟨known_mark rfl rfl, ih⟩
  | operand => exact List.forall_mem_singleton.mpr trivial
  | parenthesized _ ih =>
    simp only [List.forall_mem_append, List.forall_mem_cons]
    exact ⟨⟨known_mark rfl rfl, ih⟩, known_mark rfl rfl, by simp⟩

theorem Derives.separate (derives : Derives phrase tokens e) : Separate tokens := by
  induction derives with
  | plain _ ih | single _ ih | base _ ih | unsigned _ ih => exact ih
  | conditional _ _ _ asked first second =>
    exact asked.append_mark (first.append_mark second _) _
  | operation _ _ _ before after | power _ _ before after => exact before.append_mark after _
  | negate _ ih | not _ ih => exact ih.mark_cons _
  | operand => exact .singleton _
  | parenthesized _ ih => exact (ih.mark_cons _).append_mark .nil _

theorem Derives.occurrences_eq (derives : Derives phrase tokens e) :
    e.occurrences = tokens.flatMap Token.occurrences := by
  induction derives with
  | plain _ ih | single _ ih | base _ ih | unsigned _ ih => exact ih
  | conditional _ _ _ asked first second =>
    simp [occurrences, Token.occurrences, asked, first, second]
  | operation _ _ _ before after | power _ _ before after =>
    simp [occurrences, Token.occurrences, before, after]
  | negate _ ih | not _ ih | parenthesized _ ih => simp [occurrences, Token.occurrences, ih]
  | operand => simp [Token.occurrences]

theorem isNameChar_of_isMarkChar {c : Char} (mark : isMarkChar c) : isNameChar c = false := by
  have member := List.contains_iff_mem.mp mark
  simp only [List.mem_cons, List.not_mem_nil, or_false] at member
  rcases member with rfl | rfl | rfl | rfl | rfl | rfl | rfl | rfl | rfl | rfl | rfl | rfl | rfl |
    rfl | rfl | rfl <;> rfl

theorem Blank.isNameChar {blanks : List Char} (blank : Blank blanks) :
    ∀ c ∈ blanks, isNameChar c = false := by
  intro c member
  rcases blank c member with rfl | rfl | rfl | rfl <;> rfl

theorem Lexeme.isNameChar_of_mark {cs : List Char} {symbol : String}
    (lexeme : Lexeme cs (.mark symbol)) (known : (Token.mark symbol).Known) :
    cs ≠ [] ∧ ∀ c ∈ cs, isNameChar c = false := by
  cases lexeme
  exact ⟨known.1, fun c member => isNameChar_of_isMarkChar (known.2 c member)⟩

theorem Lexeme.isNameChar_of_not_isOperand {blanks cs : List Char} {token : Token}
    (blank : Blank blanks) (lexeme : Lexeme cs token) (known : token.Known)
    (noOperand : token.isOperand = false) :
    blanks ++ cs ≠ [] ∧ ∀ c ∈ blanks ++ cs, Expr.isNameChar c = false := by
  cases token with
  | operand e => cases noOperand
  | mark symbol =>
    obtain ⟨filled, noName⟩ := lexeme.isNameChar_of_mark known
    exact ⟨by simp [filled], List.forall_mem_append.mpr ⟨blank.isNameChar, noName⟩⟩

/-- No name goes on in a text that starts with no operand. -/
theorem Starts.isNameChar_of_mem_head? {text rest : List Char} (starts : Starts text tokens rest)
    (known : ∀ token ∈ tokens, token.Known)
    (first : ∀ token ∈ tokens.head?, token.isOperand = false) (blank : Blank rest) :
    ∀ c ∈ text.head?, isNameChar c = false := by
  intro c head
  cases starts with
  | nil => exact blank.isNameChar c (List.mem_of_mem_head? head)
  | cons blanks lexeme _ =>
    obtain ⟨filled, noName⟩ := lexeme.isNameChar_of_not_isOperand blanks
      (known _ List.mem_cons_self) (first _ rfl)
    rw [List.head?_append_of_ne_nil _ filled] at head
    exact noName c (List.mem_of_mem_head? head)

end Tabular.Expr
