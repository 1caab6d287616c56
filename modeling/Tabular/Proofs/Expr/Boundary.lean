import Tabular.Proofs.Expr.Soundness

/-!
# Where a phrase ends

A reader takes as much as it can, a phrase may be followed by anything. The two agree when what
follows cannot be taken in: no word and no number goes on in it, and behind blanks it starts with
no mark that a phrase of this kind goes on with. This holds at the end of the text and in front of
every mark that the grammar puts behind a phrase.
-/

namespace Tabular.Expr

/-- Neither a word nor a number goes on in the text. -/
def Apart (text : List Char) : Prop :=
  ∀ c ∈ text.head?, isNameChar c = false ∧ c ≠ '.'

/-- A mark that no blank, no word and no number runs into. -/
def isPlain (symbol : String) : Bool :=
  symbol.toList.head?.any fun c => !isSpace c && !isNameChar c && c != '.'

def isPrimaryStart (c : Char) : Bool :=
  isNameChar c || c == '\'' || c == '"' || c == '('

theorem isNameChar_of_isDigit {c : Char} (digit : c.isDigit) : isNameChar c := by
  simp [isNameChar, Char.isAlphanum, digit]

theorem isDigit_of_isNameStart {c : Char} (first : isNameStart c) : c.isDigit = false := by
  rcases Bool.or_eq_true_iff.mp first with letter | underscore
  · have letter : (decide ('A'.val ≤ c.val ∧ c.val ≤ 'Z'.val) ||
        decide ('a'.val ≤ c.val) && decide (c.val ≤ 'z'.val)) = true := letter
    by_contra digit
    have digit : (decide ('0'.val ≤ c.val) && decide (c.val ≤ '9'.val)) = true :=
      eq_true_of_ne_false digit
    grind
  · cases eq_of_beq underscore
    rfl

theorem isSpace_of_isPrimaryStart {c : Char} (first : isPrimaryStart c) : isSpace c = false := by
  by_contra space
  rcases isSpace_iff.mp (by simpa using space) with rfl | rfl | rfl | rfl <;>
    exact absurd first (by decide)

theorem exists_of_isPlain {symbol : String} (plain : isPlain symbol) :
    ∃ c cs, symbol.toList = c :: cs ∧ isSpace c = false ∧ isNameChar c = false ∧ c ≠ '.' := by
  rw [isPlain] at plain
  cases spelled : symbol.toList with
  | nil => simp [spelled] at plain
  | cons c cs => exact ⟨c, cs, rfl, by simpa [spelled, and_assoc] using plain⟩

theorem word_toString (b : Bool) : Word (toString b).toList := by
  have letters {cs : List Char} (all : cs.all isNameChar) : ∀ d ∈ cs, d.isAlphanum ∨ d = '_' :=
    fun d member => isNameChar_iff.mp (List.all_eq_true.mp all d member)
  cases b with
  | false => exact ⟨'f', _, rfl, .inl rfl, letters rfl⟩
  | true => exact ⟨'t', _, rfl, .inl rfl, letters rfl⟩

theorem takeWhile_append_of_stop {p : Char → Bool} {cs rest : List Char} (all : ∀ c ∈ cs, p c)
    (stop : ∀ c ∈ rest.head?, p c = false) : (cs ++ rest).takeWhile p = cs := by
  rw [List.takeWhile_append_of_pos all]
  cases rest with
  | nil => simp
  | cons c rest => simp [stop c rfl]

theorem dropWhile_append_of_stop {p : Char → Bool} {cs rest : List Char} (all : ∀ c ∈ cs, p c)
    (stop : ∀ c ∈ rest.head?, p c = false) : (cs ++ rest).dropWhile p = rest := by
  rw [List.dropWhile_append_of_pos all]
  cases rest with
  | nil => simp
  | cons c rest => simp [stop c rfl]

theorem skipSpace_of_not_isSpace {c : Char} {cs : List Char} (visible : isSpace c = false) :
    skipSpace (c :: cs) = c :: cs := by
  simp [skipSpace, visible]

theorem isSpace_or_mem_head? {text : List Char} {c : Char} (head : c ∈ text.head?) :
    isSpace c ∨ c ∈ (skipSpace text).head? := by
  cases text with
  | nil => cases head
  | cons d text =>
    cases head
    by_cases space : isSpace c
    · exact .inl space
    · right
      rw [skipSpace_of_not_isSpace (by simpa using space)]
      rfl

theorem apart_of_skipSpace {text : List Char} (apart : Apart (skipSpace text)) : Apart text := by
  intro c head
  rcases isSpace_or_mem_head? head with space | head
  · rcases isSpace_iff.mp space with rfl | rfl | rfl | rfl <;> decide
  · exact apart c head

theorem Lexeme.exists_first {cs : List Char} {e : Expr} (lexeme : Lexeme cs (.operand e)) :
    ∃ c more, cs = c :: more ∧ isPrimaryStart c := by
  have ofDigits {digits : List Char} (some : Digits digits) :
      ∃ c more, digits = c :: more ∧ isPrimaryStart c := by
    obtain ⟨c, more, rfl⟩ := List.exists_cons_of_ne_nil some.1
    exact ⟨c, more, rfl, by
      simp [isPrimaryStart, isNameChar_of_isDigit (some.2 c List.mem_cons_self)]⟩
  have ofWord (word : Word cs) : ∃ c more, cs = c :: more ∧ isPrimaryStart c := by
    obtain ⟨c, more, rfl, first, _⟩ := word
    have word := isNameChar_of_isNameStart (isNameStart_iff.mpr first)
    exact ⟨c, more, rfl, by simp [isPrimaryStart, word]⟩
  cases lexeme with
  | whole some => exact ofDigits some
  | decimal some more =>
    obtain ⟨c, behind, rfl, first⟩ := ofDigits some
    exact ⟨c, _, rfl, first⟩
  | quoted isQuote inside =>
    refine ⟨_, _, rfl, ?_⟩
    rcases isQuote with rfl | rfl <;> decide
  | truth => exact ofWord (word_toString _)
  | name word other => exact ofWord word

theorem Lexeme.exists_first_of_opens {cs : List Char} {token : Token} {phrase : Phrase}
    (lexeme : Lexeme cs token) (opens : phrase.Opens token) :
    ∃ c more, cs = c :: more ∧
      (isPrimaryStart c ∨ phrase ≠ .primary ∧ (c = '-' ∨ c = '!')) := by
  cases token with
  | operand e =>
    obtain ⟨c, more, rfl, first⟩ := lexeme.exists_first
    exact ⟨c, more, rfl, .inl first⟩
  | mark symbol =>
    cases lexeme
    rcases opens with rfl | ⟨loose, rfl | rfl⟩
    · exact ⟨_, _, rfl, .inl (by decide)⟩
    · exact ⟨_, _, rfl, .inr ⟨loose, .inl rfl⟩⟩
    · exact ⟨_, _, rfl, .inr ⟨loose, .inr rfl⟩⟩

theorem Starts.exists_of_opens {text rest : List Char} {token : Token} {tokens : List Token}
    {phrase : Phrase} (opens : phrase.Opens token) (starts : Starts text (token :: tokens) rest) :
    ∃ cs more, skipSpace text = cs ++ more ∧ Lexeme cs token ∧ Starts more tokens rest := by
  cases starts with
  | cons blank lexeme starts =>
    obtain ⟨c, cs, rfl, first⟩ := lexeme.exists_first_of_opens opens
    have visible : isSpace c = false := by
      rcases first with primary | ⟨_, rfl | rfl⟩
      · exact isSpace_of_isPrimaryStart primary
      · rfl
      · rfl
    refine ⟨c :: cs, _, ?_, lexeme, starts⟩
    rw [List.append_assoc, skipSpace_append blank]
    exact skipSpace_of_not_isSpace visible

/-- Behind its blanks a phrase starts with one of few characters. -/
theorem Starts.exists_first {text rest : List Char} {tokens : List Token} {phrase : Phrase}
    {e : Expr} (starts : Starts text tokens rest) (derives : Derives phrase tokens e) :
    ∃ c cs, skipSpace text = c :: cs ∧ Starts (c :: cs) tokens rest ∧
      (isPrimaryStart c ∨ phrase ≠ .primary ∧ (c = '-' ∨ c = '!')) := by
  obtain ⟨token, tokens, rfl, opens⟩ := derives.exists_first
  obtain ⟨cs, more, front, lexeme, starts⟩ := starts.exists_of_opens opens
  obtain ⟨c, cs, rfl, first⟩ := lexeme.exists_first_of_opens opens
  exact ⟨c, cs ++ more, front, .cons blank_nil lexeme starts, first⟩

theorem Starts.exists_of_mark {text rest : List Char} {symbol : String} {tokens : List Token}
    (plain : isPlain symbol) (starts : Starts text (.mark symbol :: tokens) rest) :
    ∃ more, skipSpace text = symbol.toList ++ more ∧ Starts more tokens rest := by
  obtain ⟨c, cs, spelled, visible, _⟩ := exists_of_isPlain plain
  cases starts with
  | cons blank lexeme starts =>
    cases lexeme
    refine ⟨_, ?_, starts⟩
    rw [List.append_assoc, skipSpace_append blank, spelled]
    exact skipSpace_of_not_isSpace visible

/-- A phrase behind an operator does not make the operator longer. -/
theorem Starts.head?_ne {text rest : List Char} {tokens : List Token} {phrase : Phrase} {e : Expr}
    (starts : Starts text tokens rest) (derives : Derives phrase tokens e) :
    ∀ c ∈ text.head?, c ≠ '*' ∧ c ≠ '=' := by
  intro c head
  rcases isSpace_or_mem_head? head with space | head
  · rcases isSpace_iff.mp space with rfl | rfl | rfl | rfl <;> decide
  · obtain ⟨d, cs, front, _, first⟩ := starts.exists_first derives
    rw [front] at head
    cases head
    rcases first with primary | ⟨_, rfl | rfl⟩
    · constructor
      · rintro rfl
        exact absurd primary (by decide)
      · rintro rfl
        exact absurd primary (by decide)
    · decide
    · decide

theorem length_lt_of_mark {symbol : String} {text more : List Char} (plain : isPlain symbol)
    (front : skipSpace text = symbol.toList ++ more) :
    (skipSpace more).length < (skipSpace text).length := by
  obtain ⟨c, cs, spelled, _⟩ := exists_of_isPlain plain
  have shorter := length_skipSpace_le more
  rw [front, spelled, List.length_append, List.length_cons]
  omega

theorem Starts.length_le_of_derives {text rest : List Char} {tokens : List Token} {phrase : Phrase}
    {e : Expr} (starts : Starts text tokens rest) (derives : Derives phrase tokens e) :
    rest.length ≤ (skipSpace text).length := by
  obtain ⟨c, cs, front, starts, _⟩ := starts.exists_first derives
  rw [front]
  exact starts.length_le

theorem length_lt_of_derives {text mid more : List Char} {tokens : List Token} {phrase : Phrase}
    {symbol : String} {e : Expr} (starts : Starts text tokens mid)
    (derives : Derives phrase tokens e) (plain : isPlain symbol)
    (front : skipSpace mid = symbol.toList ++ more) :
    (skipSpace more).length < (skipSpace text).length := by
  have smaller := length_lt_of_mark plain front
  have skipped := length_skipSpace_le mid
  have left := starts.length_le_of_derives derives
  omega

def Level.symbols (level : Level) : List String :=
  level.operators.map BinaryOp.symbol

def Level.within : Level → List Level
  | or => [or, and, comparison, additive, multiplicative]
  | and => [and, comparison, additive, multiplicative]
  | comparison => [comparison, additive, multiplicative]
  | additive => [additive, multiplicative]
  | multiplicative => [multiplicative]

def Phrase.marks : Phrase → List String
  | primary => []
  | unary => []
  | power => ["**"]
  | chain level => "**" :: level.within.flatMap Level.symbols
  | ternary => "?" :: "**" :: Level.or.within.flatMap Level.symbols

/-- A phrase of this kind that ends before the text does not go on in it. -/
structure Ends (phrase : Phrase) (text : List Char) : Prop where
  apart : Apart text
  marks : ∀ mark ∈ phrase.marks, ¬ mark.toList <+: skipSpace text

theorem Ends.tighten {phrase other : Phrase} {text : List Char} (ends : Ends phrase text)
    (fewer : other.marks ⊆ phrase.marks) : Ends other text :=
  ⟨ends.apart, fun mark member => ends.marks mark (fewer member)⟩

theorem marks_tighter_subset (level : Level) :
    level.tighter.marks ⊆ (Phrase.chain level).marks := by
  cases level <;> decide

theorem symbol_mem_marks {level : Level} :
    ∀ op ∈ level.operators, op.symbol ∈ (Phrase.chain level).marks := by
  cases level <;> decide

theorem marks_ne_empty {phrase : Phrase} {mark : String} (member : mark ∈ phrase.marks) :
    mark.toList ≠ [] := by
  cases phrase with
  | chain level =>
    revert mark
    cases level <;> decide
  | _ =>
    revert mark
    decide

theorem ends_of_blank {phrase : Phrase} {text : List Char} (blank : Blank text) :
    Ends phrase text := by
  have nothing : skipSpace text = [] := skipSpace_eq_nil_iff.mpr blank
  constructor
  · apply apart_of_skipSpace
    rw [nothing]
    nofun
  · intro mark member found
    rw [nothing, List.prefix_nil] at found
    exact marks_ne_empty member found

theorem ends_of_mark {phrase : Phrase} {symbol : String} {text more : List Char}
    (plain : isPlain symbol) (front : skipSpace text = symbol.toList ++ more)
    (foreign : ∀ mark ∈ phrase.marks, ¬ mark.toList <+: symbol.toList ++ more) :
    Ends phrase text := by
  obtain ⟨c, cs, spelled, _, noWord, noPoint⟩ := exists_of_isPlain plain
  constructor
  · apply apart_of_skipSpace
    rw [front, spelled]
    intro d first
    cases first
    exact ⟨noWord, noPoint⟩
  · rw [front]
    exact foreign

/-- Two marks that differ before one of them ends. -/
def Differ (mark symbol : String) : Prop :=
  ¬ mark.toList <+: symbol.toList ∧ ¬ symbol.toList <+: mark.toList

instance (mark symbol : String) : Decidable (Differ mark symbol) :=
  inferInstanceAs (Decidable (_ ∧ _))

theorem Differ.not_prefix_append {mark symbol : String} (differ : Differ mark symbol)
    (more : List Char) : ¬ mark.toList <+: symbol.toList ++ more := by
  intro found
  rcases List.prefix_or_prefix_of_prefix found (List.prefix_append _ _) with shorter | longer
  · exact differ.1 shorter
  · exact differ.2 longer

theorem ends_of_differ {phrase : Phrase} {symbol : String} {text more : List Char}
    (plain : isPlain symbol) (front : skipSpace text = symbol.toList ++ more)
    (differ : ∀ mark ∈ phrase.marks, Differ mark symbol) : Ends phrase text :=
  ends_of_mark plain front fun mark member => (differ mark member).not_prefix_append more

theorem isPlain_symbol (op : BinaryOp) : isPlain op.symbol := by
  cases op <;> decide

theorem differ_of_mem_operators {level : Level} :
    ∀ op ∈ level.operators, op ≠ .mul → ∀ mark ∈ level.tighter.marks, Differ mark op.symbol := by
  cases level <;> decide

/-- An operator ends the operand before it. The only operator that starts like a mark of its
operands is the one of products, and what follows it tells it from the one of powers. -/
theorem ends_of_operator {level : Level} {op : BinaryOp} {text more : List Char}
    (known : op ∈ level.operators) (front : skipSpace text = op.symbol.toList ++ more)
    (next : ∀ c ∈ more.head?, c ≠ '*') : Ends level.tighter text := by
  apply ends_of_mark (isPlain_symbol op) front
  intro mark member
  by_cases times : op = .mul
  · subst times
    intro found
    cases level with
    | multiplicative =>
      cases List.mem_singleton.mp member
      cases more with
      | nil => exact absurd found (by decide)
      | cons c more =>
        have same : '*' = c := by simpa [BinaryOp.symbol] using found
        exact next c rfl same.symm
    | _ => exact absurd known (by decide)
  · exact (differ_of_mem_operators op known times mark member).not_prefix_append more

end Tabular.Expr
