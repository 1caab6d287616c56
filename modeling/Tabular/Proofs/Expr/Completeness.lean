import Tabular.Proofs.Expr.Boundary

/-!
# Every phrase is read

In a text that starts with a phrase and does not go on with it, the reader of this kind of phrases
takes exactly the phrase and gives its tree. The bound on the length stands for the fuel of the
readers inside parentheses and conditionals.
-/

namespace Tabular.Expr

/-- Every phrase in a text below the bound is read up to its end, wherever it can end. -/
def Complete (bound : Nat) (phrase : Phrase) (reader : Reader Expr) : Prop :=
  ∀ text tokens rest e, (skipSpace text).length < bound → Starts text tokens rest →
    Derives phrase tokens e → Ends phrase rest → reader (skipSpace text) = .ok (e, rest)

theorem Apart.not_isDigit {text : List Char} (apart : Apart text) :
    ∀ c ∈ text.head?, c.isDigit = false := by
  intro c first
  by_contra digit
  have word := isNameChar_of_isDigit (c := c) (by simpa using digit)
  exact absurd (apart c first).1 (by simp [word])

theorem readNumber_whole {digits rest : List Char} (some : Digits digits) (apart : Apart rest) :
    readNumber (digits ++ rest) =
      (number (Decimal.nearest (Nat.ofDigitChars 10 digits 0) 0), rest) := by
  simp only [readNumber, takeWhile_append_of_stop some.2 apart.not_isDigit,
    dropWhile_append_of_stop some.2 apart.not_isDigit]
  split
  · exact absurd rfl (apart '.' rfl).2
  · rfl

theorem readNumber_decimal {digits fraction rest : List Char} (some : Digits digits)
    (more : Digits fraction) (apart : Apart rest) :
    readNumber (digits ++ '.' :: fraction ++ rest) =
      (number (Decimal.nearest (Nat.ofDigitChars 10 (digits ++ fraction) 0) (-fraction.length)),
        rest) := by
  have point : ∀ c ∈ ('.' :: (fraction ++ rest)).head?, c.isDigit = false := by
    intro c first
    cases first
    rfl
  rw [List.append_assoc, List.cons_append]
  simp only [readNumber, takeWhile_append_of_stop some.2 point,
    dropWhile_append_of_stop some.2 point, takeWhile_append_of_stop more.2 apart.not_isDigit,
    dropWhile_append_of_stop more.2 apart.not_isDigit, if_neg more.1]

theorem readQuoted_append {quote : Char} {cs : List Char} (inside : quote ∉ cs)
    (rest : List Char) :
    readQuoted quote (cs ++ [quote] ++ rest) = .ok (text (String.ofList cs), rest) := by
  have all : ∀ c ∈ cs, (c != quote) = true := by
    intro c member
    simp only [bne_iff_ne]
    rintro rfl
    exact inside member
  have stop : ∀ c ∈ (quote :: rest).head?, (c != quote) = false := by
    intro c first
    cases first
    simp
  rw [List.append_assoc, List.singleton_append, readQuoted, takeWhile_append_of_stop all stop,
    dropWhile_append_of_stop all stop]

theorem readName_append {cs rest : List Char} (word : Word cs) (apart : Apart rest) :
    readName (cs ++ rest) = (ofName (String.ofList cs), rest) := by
  have stop : ∀ d ∈ rest.head?, isNameChar d = false := fun d first => (apart d first).1
  rw [readName, takeWhile_append_of_stop word.isNameChar stop,
    dropWhile_append_of_stop word.isNameChar stop]

theorem readPrimary_lexeme {inner : Reader Expr} {cs rest : List Char} {e : Expr}
    (lexeme : Lexeme cs (.operand e)) (apart : Apart rest) :
    readPrimary inner (cs ++ rest) = .ok (e, rest) := by
  have ofDigits {digits : List Char} (some : Digits digits) (behind : List Char) :
      readPrimary inner (digits ++ behind) = .ok (readNumber (digits ++ behind)) := by
    obtain ⟨c, more, rfl⟩ := List.exists_cons_of_ne_nil some.1
    rw [List.cons_append, readPrimary, if_pos (some.2 c List.mem_cons_self)]
  have ofWord {cs : List Char} (word : Word cs) :
      readPrimary inner (cs ++ rest) = .ok (ofName (String.ofList cs), rest) := by
    rw [← readName_append word apart]
    obtain ⟨c, more, rfl, first, _⟩ := word
    have first := isNameStart_iff.mpr first
    have noDigit : ¬ c.isDigit := by simp [isDigit_of_isNameStart first]
    have noQuote : ¬ (c = '\'' ∨ c = '"') := by
      rintro (rfl | rfl) <;> exact absurd first (by decide)
    rw [List.cons_append, readPrimary, if_neg noDigit, if_neg noQuote, if_pos first]
  cases lexeme with
  | whole some => rw [ofDigits some, readNumber_whole some apart]
  | decimal some more =>
    rw [List.append_assoc, ofDigits some, ← List.append_assoc, readNumber_decimal some more apart]
  | @quoted quote cs isQuote inside =>
    have noDigit : ¬ quote.isDigit := by
      rcases isQuote with rfl | rfl <;> decide
    rw [List.cons_append, List.cons_append, readPrimary, if_neg noDigit, if_pos isQuote]
    exact readQuoted_append inside rest
  | truth => rw [ofWord (word_toString _), ofName_toString]
  | name word other => rw [ofWord word, ofName_eq_var other]

theorem readPrimary_complete {bound : Nat} {inner : Reader Expr}
    (complete : Complete bound .ternary inner) :
    Complete (bound + 1) .primary (readPrimary inner) := by
  intro text tokens rest e short starts derives ends
  cases derives with
  | operand =>
    have opens : Phrase.primary.Opens (.operand e) := trivial
    obtain ⟨cs, more, front, lexeme, starts⟩ := starts.exists_of_opens opens
    cases starts
    rw [front]
    exact readPrimary_lexeme lexeme ends.apart
  | parenthesized derives =>
    obtain ⟨more, front, starts⟩ := starts.exists_of_mark (by decide)
    obtain ⟨mid, starts, closing⟩ := starts_append_iff.mp starts
    obtain ⟨behind, closed, done⟩ := closing.exists_of_mark (by decide)
    cases done
    have smaller := length_lt_of_mark (by decide) front
    have ends : Ends .ternary mid := ends_of_differ (by decide) closed (by decide)
    have taken := complete _ _ _ _ (by omega) starts derives ends
    rw [front]
    show readPrimary inner ('(' :: more) = _
    rw [readPrimary, if_neg (by decide), if_neg (by decide), if_neg (by decide), if_pos rfl]
    refine bind_eq_ok_iff.mpr ⟨_, expecting_eq_ok_iff.mpr taken, ?_⟩
    dsimp only
    rw [closed]
    rfl

theorem unaryOp?_of_isPrimaryStart {c : Char} (first : isPrimaryStart c) : unaryOp? c = none := by
  rw [unaryOp?, if_neg, if_neg]
  · rintro rfl
    exact absurd first (by decide)
  · rintro rfl
    exact absurd first (by decide)

theorem readUnary_sign {fuel : Nat} {primary : Reader Expr} {mark : Char} {op : UnaryOp}
    {text more rest : List Char} {e : Expr} (sign : unaryOp? mark = some op)
    (front : skipSpace text = mark :: more)
    (taken : readUnary primary fuel (skipSpace more) = .ok (e, rest)) :
    readUnary primary (fuel + 1) (skipSpace text) = .ok (unary op e, rest) := by
  rw [front, readUnary, sign]
  dsimp only
  rw [taken]

theorem readUnary_complete {bound fuel : Nat} {primary : Reader Expr}
    (complete : Complete bound .primary primary) {text rest : List Char} {tokens : List Token}
    {e : Expr} (short : (skipSpace text).length < bound) (enough : (skipSpace text).length ≤ fuel)
    (starts : Starts text tokens rest) (derives : Derives .unary tokens e)
    (ends : Ends .unary rest) : readUnary primary fuel (skipSpace text) = .ok (e, rest) := by
  induction fuel generalizing text tokens e with
  | zero =>
    obtain ⟨c, cs, front, _⟩ := starts.exists_first derives
    simp [front] at enough
  | succ fuel ih =>
    cases derives with
    | unsigned derives =>
      obtain ⟨c, cs, front, _, first⟩ := starts.exists_first derives
      have primary : isPrimaryStart c := first.resolve_right fun ⟨loose, _⟩ => loose rfl
      have taken := complete _ _ _ _ short starts derives ⟨ends.apart, by nofun⟩
      rw [front] at taken ⊢
      rw [readUnary, unaryOp?_of_isPrimaryStart primary]
      exact taken
    | negate derives =>
      obtain ⟨more, front, starts⟩ := starts.exists_of_mark (by decide)
      have smaller := length_lt_of_mark (by decide) front
      have taken := ih (by omega) (by omega) starts derives
      exact readUnary_sign rfl front taken
    | not derives =>
      obtain ⟨more, front, starts⟩ := starts.exists_of_mark (by decide)
      have smaller := length_lt_of_mark (by decide) front
      have taken := ih (by omega) (by omega) starts derives
      exact readUnary_sign rfl front taken

theorem readPower_complete {bound fuel : Nat} {operand : Reader Expr}
    (complete : Complete bound .unary operand) {text rest : List Char} {tokens : List Token}
    {e : Expr} (short : (skipSpace text).length < bound) (enough : (skipSpace text).length ≤ fuel)
    (starts : Starts text tokens rest) (derives : Derives .power tokens e)
    (ends : Ends .power rest) : readPower operand fuel (skipSpace text) = .ok (e, rest) := by
  induction fuel generalizing text tokens e with
  | zero =>
    obtain ⟨c, cs, front, _⟩ := starts.exists_first derives
    simp [front] at enough
  | succ fuel ih =>
    rw [readPower]
    cases derives with
    | base derives =>
      have taken := complete _ _ _ _ short starts derives (ends.tighten (by decide))
      refine bind_eq_ok_iff.mpr ⟨_, taken, ?_⟩
      dsimp only
      split
      · rename_i more stars
        exact absurd ⟨more, stars.symm⟩ (ends.marks "**" (by decide))
      · rfl
    | power derives powers =>
      obtain ⟨mid, starts, goesOn⟩ := starts_append_iff.mp starts
      obtain ⟨more, stars, goesOn⟩ := goesOn.exists_of_mark (by decide)
      have ends : Ends .unary mid := ends_of_differ (by decide) stars (by decide)
      have taken := complete _ _ _ _ short starts derives ends
      have smaller := length_lt_of_derives starts derives (by decide) stars
      have raised := ih (by omega) (by omega) goesOn powers
      refine bind_eq_ok_iff.mpr ⟨_, taken, ?_⟩
      dsimp only
      rw [stars]
      exact bind_eq_ok_iff.mpr ⟨_, commit_eq_ok_iff.mpr raised, rfl⟩

theorem operator?_append {level : Level} {op : BinaryOp} {more : List Char}
    (known : op ∈ level.operators) (next : ∀ c ∈ more.head?, c ≠ '*' ∧ c ≠ '=') :
    level.operator? (op.symbol.toList ++ more) = some (op, more) := by
  have noStar (others : List Char) (same : more = '*' :: others) : False := by
    subst same
    exact (next '*' rfl).1 rfl
  have noEquals (others : List Char) (same : more = '=' :: others) : False := by
    subst same
    exact (next '=' rfl).2 rfl
  simp only [Level.operators] at known
  cases level with
  | or => cases List.mem_singleton.mp known; rfl
  | and => cases List.mem_singleton.mp known; rfl
  | comparison =>
    simp only [List.mem_cons, List.not_mem_nil, or_false] at known
    rcases known with rfl | rfl | rfl | rfl | rfl | rfl | rfl | rfl
    all_goals simp [BinaryOp.symbol, Level.operator?]
  | additive =>
    simp only [List.mem_cons, List.not_mem_nil, or_false] at known
    rcases known with rfl | rfl <;> rfl
  | multiplicative =>
    simp only [List.mem_cons, List.not_mem_nil, or_false] at known
    rcases known with rfl | rfl | rfl
    all_goals simp [BinaryOp.symbol, Level.operator?]

theorem operator?_eq_none {level : Level} {text : List Char} (ends : Ends (.chain level) text) :
    level.operator? (skipSpace text) = none := by
  rw [Option.eq_none_iff_forall_ne_some]
  rintro ⟨op, rest⟩ found
  obtain ⟨known, split⟩ := eq_append_of_operator? found
  exact ends.marks _ (symbol_mem_marks op known) ⟨rest, split.symm⟩

theorem Chain.concat {level : Level} {op : BinaryOp} {first left right : Expr}
    {tokens after : List Token} (chain : Chain level first tokens left)
    (known : op ∈ level.operators) (operand : Derives level.tighter after right) :
    Chain level first (tokens ++ .mark op.symbol :: after) (binary op left right) := by
  induction chain with
  | nil => simpa using Chain.cons known operand .nil
  | cons earlier inside _ ih => simpa using Chain.cons earlier inside ih

theorem Derives.exists_chain {level : Level} {tokens : List Token} {e : Expr}
    (derives : Derives (.chain level) tokens e) :
    ∃ first others left, tokens = first ++ others ∧ Derives level.tighter first left ∧
      Chain level left others e := by
  generalize same : Phrase.chain level = phrase at derives
  induction derives with
  | single operand =>
    cases same
    exact ⟨_, [], _, (List.append_nil _).symm, operand, .nil⟩
  | operation known _ operand ih _ =>
    cases same
    obtain ⟨first, others, left, rfl, derives, chain⟩ := ih rfl
    exact ⟨first, _, left, List.append_assoc _ _ _, derives, chain.concat known operand⟩
  | _ => cases same

/-- The operand before the rest of a chain ends there. -/
theorem Chain.ends {level : Level} {left e : Expr} {tokens : List Token} {text rest : List Char}
    (chain : Chain level left tokens e) (starts : Starts text tokens rest)
    (ends : Ends (.chain level) rest) : Ends level.tighter text := by
  cases chain with
  | nil =>
    cases starts
    exact ends.tighten (marks_tighter_subset level)
  | cons known operand _ =>
    obtain ⟨more, front, starts⟩ := starts.exists_of_mark (isPlain_symbol _)
    obtain ⟨mid, starts, _⟩ := starts_append_iff.mp starts
    exact ends_of_operator known front fun c head => (starts.head?_ne operand c head).1

theorem readChain_complete {bound fuel : Nat} {level : Level} {operand : Reader Expr}
    (complete : Complete bound level.tighter operand) {left e : Expr} {text rest : List Char}
    {tokens : List Token} (short : text.length < bound) (enough : text.length ≤ fuel)
    (starts : Starts text tokens rest) (chain : Chain level left tokens e)
    (ends : Ends (.chain level) rest) :
    readChain operand level fuel left text = .ok (e, rest) := by
  induction chain generalizing text fuel with
  | nil =>
    cases starts
    cases fuel with
    | zero => rfl
    | succ fuel => rw [readChain, operator?_eq_none ends]
  | @cons op left right e inside others known derives chain ih =>
    obtain ⟨more, front, starts⟩ := starts.exists_of_mark (isPlain_symbol _)
    obtain ⟨mid, starts, goesOn⟩ := starts_append_iff.mp starts
    have smaller := length_lt_of_mark (isPlain_symbol _) front
    have behind := length_skipSpace_le text
    have shorter := starts.length_le_of_derives derives
    have taken := complete _ _ _ _ (by omega) starts derives (chain.ends goesOn ends)
    cases fuel with
    | zero => omega
    | succ fuel =>
      rw [readChain, front, operator?_append known (starts.head?_ne derives)]
      refine bind_eq_ok_iff.mpr ⟨_, expecting_eq_ok_iff.mpr (commit_eq_ok_iff.mpr taken), ?_⟩
      exact ih (by omega) (by omega) goesOn

theorem readLevel_complete {bound : Nat} {level : Level} {operand : Reader Expr}
    (complete : Complete bound level.tighter operand) :
    Complete bound (.chain level) (readLevel level operand) := by
  intro text tokens rest e short starts derives ends
  obtain ⟨first, others, left, rfl, derives, chain⟩ := derives.exists_chain
  obtain ⟨mid, starts, goesOn⟩ := starts_append_iff.mp starts
  have taken := complete _ _ _ _ short starts derives (chain.ends goesOn ends)
  have behind := starts.length_le_of_derives derives
  exact bind_eq_ok_iff.mpr
    ⟨_, taken, readChain_complete complete (by omega) (Nat.le_refl _) goesOn chain ends⟩

theorem readOperation_complete {bound : Nat} {inner : Reader Expr}
    (complete : Complete bound .ternary inner) :
    Complete (bound + 1) (.chain .or) (readOperation inner) := by
  have unary : Complete (bound + 1) .unary
      fun cs => readUnary (readPrimary inner) cs.length cs :=
    fun _ _ _ _ short =>
      readUnary_complete (readPrimary_complete complete) short (Nat.le_refl _)
  have power : Complete (bound + 1) .power fun cs =>
      readPower (fun cs => readUnary (readPrimary inner) cs.length cs) cs.length cs :=
    fun _ _ _ _ short => readPower_complete unary short (Nat.le_refl _)
  have products : Complete _ (.chain .multiplicative) _ := readLevel_complete power
  have sums : Complete _ (.chain .additive) _ := readLevel_complete products
  have comparisons : Complete _ (.chain .comparison) _ := readLevel_complete sums
  have conjunctions : Complete _ (.chain .and) _ := readLevel_complete comparisons
  exact readLevel_complete conjunctions

theorem readExpr_complete (fuel : Nat) : Complete fuel .ternary (readExpr fuel) := by
  induction fuel with
  | zero =>
    intro text tokens rest e short
    exact absurd short (Nat.not_lt_zero _)
  | succ fuel ih =>
    intro text tokens rest e short starts derives ends
    rw [readExpr]
    cases derives with
    | plain derives =>
      have taken := readOperation_complete ih _ _ _ _ short starts derives
        (ends.tighten (by decide))
      refine bind_eq_ok_iff.mpr ⟨_, taken, ?_⟩
      dsimp only
      split
      · rename_i more asks
        exact absurd ⟨more, asks.symm⟩ (ends.marks "?" (by decide))
      · rfl
    | conditional test positive negative =>
      obtain ⟨asked, starts, goesOn⟩ := starts_append_iff.mp starts
      obtain ⟨more, asks, goesOn⟩ := goesOn.exists_of_mark (by decide)
      obtain ⟨first, inside, goesOn⟩ := starts_append_iff.mp goesOn
      obtain ⟨last, parts, goesOn⟩ := goesOn.exists_of_mark (by decide)
      have shorter := length_lt_of_derives starts test (by decide) asks
      have shortest := length_lt_of_derives inside positive (by decide) parts
      have condition := readOperation_complete ih _ _ _ _ short starts test
        (ends_of_differ (by decide) asks (by decide))
      have yes := ih _ _ _ _ (by omega) inside positive
        (ends_of_differ (by decide) parts (by decide))
      have no := ih _ _ _ _ (by omega) goesOn negative ends
      refine bind_eq_ok_iff.mpr ⟨_, condition, ?_⟩
      dsimp only
      rw [asks]
      refine bind_eq_ok_iff.mpr ⟨_, commit_eq_ok_iff.mpr yes, ?_⟩
      dsimp only
      rw [parts]
      exact bind_eq_ok_iff.mpr ⟨_, commit_eq_ok_iff.mpr no, rfl⟩

theorem readChars_complete {cs : List Char} {tokens : List Token} {e : Expr}
    (spells : Spells cs tokens) (derives : Derives .ternary tokens e) : readChars cs = .ok e := by
  obtain ⟨rest, starts, blank⟩ := spells
  have short : (skipSpace cs).length < cs.length + 1 :=
    Nat.lt_succ_of_le (length_skipSpace_le cs)
  have taken := readExpr_complete _ _ _ _ _ short starts derives (ends_of_blank blank)
  refine bind_eq_ok_iff.mpr ⟨_, taken, ?_⟩
  dsimp only
  rw [skipSpace_eq_nil_iff.mpr blank]
  rfl

/-- Signs bind tighter than powers, and powers group to the right. -/
example : read "-a ** b ** c" = .ok (binary .pow (unary .negate (var "a"))
    (binary .pow (var "b") (var "c"))) := by
  rfl

end Tabular.Expr
