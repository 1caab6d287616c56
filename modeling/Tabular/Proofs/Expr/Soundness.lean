import Tabular.Proofs.Expr.Grammar

/-!
# What a reader takes is a phrase

Every reader of expressions takes tokens from the front of its text that form a phrase of its kind,
and gives the tree of this phrase. Only what the reader is made of is needed for this: blanks that
are skipped stand before a token, and nothing else is dropped.
-/

namespace Tabular.Expr

/-- The reader takes phrases only, and gives their trees. -/
def Sound (phrase : Phrase) (reader : Reader Expr) : Prop :=
  ∀ text e rest, reader text = .ok (e, rest) →
    ∃ tokens, Starts text tokens rest ∧ Derives phrase tokens e

theorem commit_eq_ok_iff {α : Type} {result : Except Stop α} {a : α} :
    commit result = .ok a ↔ result = .ok a := by
  cases result <;> simp [commit, Except.mapError]

theorem expecting_eq_ok_iff {α : Type} {expected : Expected} {result : Except Stop α} {a : α} :
    expecting expected result = .ok a ↔ result = .ok a := by
  cases result <;> simp [expecting, Except.mapError]

theorem bind_eq_ok_iff {α β : Type} {result : Except Stop α} {next : α → Except Stop β} {b : β} :
    result >>= next = .ok b ↔ ∃ a, result = .ok a ∧ next a = .ok b := by
  cases result <;> simp [bind, Except.bind]

theorem Starts.of_skipSpace {text cs more rest : List Char} {token : Token} {tokens : List Token}
    (front : skipSpace text = cs ++ more) (lexeme : Lexeme cs token)
    (starts : Starts more tokens rest) : Starts text (token :: tokens) rest := by
  obtain ⟨blanks, blank, split⟩ := exists_skipSpace text
  rw [split, front, ← List.append_assoc]
  exact .cons blank lexeme starts

theorem Starts.mark (symbol : String) {text more rest : List Char} {tokens : List Token}
    (front : skipSpace text = symbol.toList ++ more) (starts : Starts more tokens rest) :
    Starts text (.mark symbol :: tokens) rest :=
  .of_skipSpace front .mark starts

theorem Starts.single {cs rest : List Char} {token : Token} (lexeme : Lexeme cs token) :
    Starts (cs ++ rest) [token] rest :=
  .cons blank_nil lexeme .nil

theorem Starts.of_starts_skipSpace {text rest : List Char} {token : Token} {tokens : List Token}
    (starts : Starts (skipSpace text) (token :: tokens) rest) :
    Starts text (token :: tokens) rest := by
  obtain ⟨blanks, blank, split⟩ := exists_skipSpace text
  generalize skipSpace text = behind at starts split
  cases starts with
  | cons inner lexeme starts =>
    subst split
    rw [← List.append_assoc, ← List.append_assoc]
    refine .cons ?_ lexeme starts
    intro c member
    exact (List.mem_append.mp member).elim (blank c) (inner c)

theorem Sound.exists_of_skipSpace {phrase : Phrase} {reader : Reader Expr}
    (sound : Sound phrase reader) {text rest : List Char} {e : Expr}
    (taken : reader (skipSpace text) = .ok (e, rest)) :
    ∃ tokens, Starts text tokens rest ∧ Derives phrase tokens e := by
  obtain ⟨tokens, starts, derives⟩ := sound _ _ _ taken
  obtain ⟨token, more, rfl, _⟩ := derives.exists_first
  exact ⟨_, starts.of_starts_skipSpace, derives⟩

theorem starts_readNumber {cs : List Char} (digits : Digits (cs.takeWhile Char.isDigit)) :
    Starts cs [.operand (readNumber cs).1] (readNumber cs).2 := by
  have split : cs.takeWhile Char.isDigit ++ cs.dropWhile Char.isDigit = cs :=
    List.takeWhile_append_dropWhile
  simp only [readNumber]
  generalize cs.takeWhile Char.isDigit = whole at digits split
  generalize cs.dropWhile Char.isDigit = behind at split
  subst split
  split
  · rename_i more
    split
    · exact .single (.whole digits)
    · rename_i point
      have fraction : Digits (more.takeWhile Char.isDigit) :=
        ⟨point, fun _ => List.mem_takeWhile_imp⟩
      have split : whole ++ '.' :: more =
          (whole ++ '.' :: more.takeWhile Char.isDigit) ++ more.dropWhile Char.isDigit := by
        simp
      rw [split]
      exact .single (.decimal digits fraction)
  · exact .single (.whole digits)

theorem starts_of_readQuoted {quote : Char} (isQuote : quote = '\'' ∨ quote = '"')
    {cs rest : List Char} {e : Expr} (taken : readQuoted quote cs = .ok (e, rest)) :
    Starts (quote :: cs) [.operand e] rest := by
  have split : cs.takeWhile (· != quote) ++ cs.dropWhile (· != quote) = cs :=
    List.takeWhile_append_dropWhile
  have inside : quote ∉ cs.takeWhile (· != quote) := fun member => by
    simpa using List.mem_takeWhile_imp member
  rw [readQuoted] at taken
  split at taken
  · rename_i last behind found
    -- The characters that are dropped end before the closing quote.
    have closing : last = quote := by
      simpa [found] using List.head?_dropWhile_not (· != quote) cs
    cases taken
    have split : quote :: cs = (quote :: cs.takeWhile (· != quote) ++ [quote]) ++ rest := by
      simpa [found, closing] using split.symm
    rw [split]
    exact .single (.quoted isQuote inside)
  · cases taken

theorem isNameStart_iff {c : Char} : isNameStart c ↔ c.isAlpha ∨ c = '_' := by
  simp [isNameStart]

theorem isNameChar_iff {c : Char} : isNameChar c ↔ c.isAlphanum ∨ c = '_' := by
  simp [isNameChar]

theorem isNameChar_of_isNameStart {c : Char} (first : isNameStart c) : isNameChar c := by
  simp only [isNameStart, isNameChar, Char.isAlphanum] at first ⊢
  grind

theorem Word.isNameChar {cs : List Char} (word : Word cs) : ∀ c ∈ cs, isNameChar c := by
  obtain ⟨first, more, rfl, start, goesOn⟩ := word
  refine List.forall_mem_cons.mpr ⟨isNameChar_of_isNameStart (isNameStart_iff.mpr start), ?_⟩
  exact fun c member => isNameChar_iff.mpr (goesOn c member)

theorem ofName_eq_var {cs : List Char} (other : ∀ b : Bool, cs ≠ (toString b).toList) :
    ofName (String.ofList cs) = var (String.ofList cs) := by
  have different (b : Bool) : String.ofList cs ≠ toString b := fun same =>
    other b (by rw [← same, String.toList_ofList])
  have noTruth : String.ofList cs ≠ "true" := different true
  have noFalsehood : String.ofList cs ≠ "false" := different false
  rw [ofName, if_neg noTruth, if_neg noFalsehood]

theorem ofName_toString (b : Bool) : ofName (String.ofList (toString b).toList) = bool b := by
  cases b <;> rfl

theorem lexeme_ofName {cs : List Char} (word : Word cs) :
    Lexeme cs (.operand (ofName (String.ofList cs))) := by
  by_cases truth : ∃ b : Bool, cs = (toString b).toList
  · obtain ⟨b, rfl⟩ := truth
    rw [ofName_toString]
    exact .truth
  · have other (b : Bool) : cs ≠ (toString b).toList := fun same => truth ⟨b, same⟩
    rw [ofName_eq_var other]
    exact .name word other

theorem starts_readName {c : Char} {cs : List Char} (first : isNameStart c) :
    Starts (c :: cs) [.operand (readName (c :: cs)).1] (readName (c :: cs)).2 := by
  have split : (c :: cs.takeWhile isNameChar) ++ cs.dropWhile isNameChar = c :: cs := by
    simp
  have word : Word (c :: cs.takeWhile isNameChar) :=
    ⟨c, _, rfl, isNameStart_iff.mp first, fun _ member =>
      isNameChar_iff.mp (List.mem_takeWhile_imp member)⟩
  have goesOn := isNameChar_of_isNameStart first
  rw [readName, List.takeWhile_cons_of_pos goesOn, List.dropWhile_cons_of_pos goesOn, ← split]
  exact .single (lexeme_ofName word)

theorem readPrimary_sound {inner : Reader Expr} (sound : Sound .ternary inner) :
    Sound .primary (readPrimary inner) := by
  intro text e rest taken
  cases text with
  | nil => cases taken
  | cons c cs =>
    rw [readPrimary] at taken
    split_ifs at taken with digit quote first opening
    · have digits : Digits ((c :: cs).takeWhile Char.isDigit) :=
        ⟨by simp [digit], fun _ => List.mem_takeWhile_imp⟩
      have starts := starts_readNumber digits
      rw [Except.ok.inj taken] at starts
      exact ⟨_, starts, .operand⟩
    · exact ⟨_, starts_of_readQuoted quote taken, .operand⟩
    · cases taken
      exact ⟨_, starts_readName first, .operand⟩
    · subst opening
      obtain ⟨⟨inside, behind⟩, taken, closed⟩ := bind_eq_ok_iff.mp taken
      obtain ⟨tokens, starts, derives⟩ := sound.exists_of_skipSpace (expecting_eq_ok_iff.mp taken)
      dsimp only at closed
      split at closed
      · rename_i more closing
        cases closed
        have closed := starts.append (.mark ")" closing .nil)
        exact ⟨_, .mark "(" rfl closed, .parenthesized derives⟩
      · cases closed

theorem readUnary_sound {primary : Reader Expr} (sound : Sound .primary primary) (fuel : Nat) :
    Sound .unary (readUnary primary fuel) := by
  have plain : Sound .unary primary := fun text e rest taken =>
    (sound text e rest taken).imp fun _ ⟨starts, derives⟩ => ⟨starts, .unsigned derives⟩
  induction fuel with
  | zero => exact plain
  | succ fuel ih =>
    intro text e rest taken
    cases text with
    | nil => exact plain [] e rest taken
    | cons c cs =>
      rw [readUnary] at taken
      split at taken
      · exact plain _ e rest taken
      · rename_i op sign
        split at taken
        · rename_i inside behind found
          cases taken
          obtain ⟨tokens, starts, derives⟩ := ih.exists_of_skipSpace found
          simp only [unaryOp?] at sign
          split_ifs at sign with minus bang
          · cases sign
            subst minus
            exact ⟨_, .mark "-" rfl starts, .negate derives⟩
          · cases sign
            subst bang
            exact ⟨_, .mark "!" rfl starts, .not derives⟩
        · split_ifs at taken
          exact plain _ e rest taken

theorem readPower_sound {operand : Reader Expr} (sound : Sound .unary operand) (fuel : Nat) :
    Sound .power (readPower operand fuel) := by
  induction fuel with
  | zero =>
    intro text e rest taken
    obtain ⟨tokens, starts, derives⟩ := sound text e rest taken
    exact ⟨tokens, starts, .base derives⟩
  | succ fuel ih =>
    intro text e rest taken
    obtain ⟨⟨base, behind⟩, taken, more⟩ := bind_eq_ok_iff.mp taken
    obtain ⟨tokens, starts, derives⟩ := sound text base behind taken
    dsimp only at more
    split at more
    · rename_i further stars
      obtain ⟨⟨exponent, final⟩, raised, done⟩ := bind_eq_ok_iff.mp more
      cases done
      obtain ⟨powers, goesOn, exponents⟩ := ih.exists_of_skipSpace (commit_eq_ok_iff.mp raised)
      exact ⟨_, starts.append (.mark "**" stars goesOn), .power derives exponents⟩
    · cases more
      exact ⟨tokens, starts, .base derives⟩

theorem eq_append_of_operator? {level : Level} {cs rest : List Char} {op : BinaryOp}
    (found : level.operator? cs = some (op, rest)) :
    op ∈ level.operators ∧ cs = op.symbol.toList ++ rest := by
  unfold Level.operator? at found
  split at found <;> cases found <;> exact ⟨by decide, rfl⟩

/-- Operators of a level and their right operands, which turn the first tree into the second. -/
inductive Chain (level : Level) : Expr → List Token → Expr → Prop
  | nil {e : Expr} : Chain level e [] e
  | cons {op : BinaryOp} {left right e : Expr} {tokens more : List Token}
      (known : op ∈ level.operators) (operand : Derives level.tighter tokens right)
      (chain : Chain level (binary op left right) more e) :
      Chain level left (.mark op.symbol :: tokens ++ more) e

theorem Derives.chain {level : Level} {tokens more : List Token} {left e : Expr}
    (derives : Derives (.chain level) tokens left) (chain : Chain level left more e) :
    Derives (.chain level) (tokens ++ more) e := by
  induction chain generalizing tokens with
  | nil => simpa using derives
  | cons known operand _ ih => simpa using ih (.operation known derives operand)

theorem readChain_sound {operand : Reader Expr} {level : Level}
    (sound : Sound level.tighter operand) {fuel : Nat} {left e : Expr} {text rest : List Char}
    (taken : readChain operand level fuel left text = .ok (e, rest)) :
    ∃ tokens, Starts text tokens rest ∧ Chain level left tokens e := by
  induction fuel generalizing left text with
  | zero =>
    cases taken
    exact ⟨[], .nil, .nil⟩
  | succ fuel ih =>
    rw [readChain] at taken
    split at taken
    · cases taken
      exact ⟨[], .nil, .nil⟩
    · rename_i op behind found
      obtain ⟨known, split⟩ := eq_append_of_operator? found
      obtain ⟨⟨right, mid⟩, taken, more⟩ := bind_eq_ok_iff.mp taken
      obtain ⟨tokens, starts, derives⟩ :=
        sound.exists_of_skipSpace (commit_eq_ok_iff.mp (expecting_eq_ok_iff.mp taken))
      obtain ⟨others, goesOn, chain⟩ := ih more
      exact ⟨_, (starts.of_skipSpace split .mark).append goesOn, .cons known derives chain⟩

theorem readLevel_sound {operand : Reader Expr} {level : Level}
    (sound : Sound level.tighter operand) : Sound (.chain level) (readLevel level operand) := by
  intro text e rest taken
  obtain ⟨⟨left, behind⟩, taken, more⟩ := bind_eq_ok_iff.mp taken
  obtain ⟨tokens, starts, derives⟩ := sound text left behind taken
  obtain ⟨others, goesOn, chain⟩ := readChain_sound sound more
  exact ⟨tokens ++ others, starts.append goesOn, Derives.chain (.single derives) chain⟩

theorem readOperation_sound {inner : Reader Expr} (sound : Sound .ternary inner) :
    Sound (.chain .or) (readOperation inner) := by
  have unary : Sound .unary fun cs => readUnary (readPrimary inner) cs.length cs :=
    fun text => readUnary_sound (readPrimary_sound sound) text.length text
  have power : Sound .power fun cs =>
      readPower (fun cs => readUnary (readPrimary inner) cs.length cs) cs.length cs :=
    fun text => readPower_sound unary text.length text
  have products : Sound (.chain .multiplicative) _ := readLevel_sound power
  have sums : Sound (.chain .additive) _ := readLevel_sound products
  have comparisons : Sound (.chain .comparison) _ := readLevel_sound sums
  have conjunctions : Sound (.chain .and) _ := readLevel_sound comparisons
  exact readLevel_sound conjunctions

theorem readExpr_sound (fuel : Nat) : Sound .ternary (readExpr fuel) := by
  induction fuel with
  | zero =>
    intro text e rest taken
    cases taken
  | succ fuel ih =>
    intro text e rest taken
    rw [readExpr] at taken
    obtain ⟨⟨condition, behind⟩, taken, more⟩ := bind_eq_ok_iff.mp taken
    obtain ⟨asked, starts, test⟩ := readOperation_sound ih text condition behind taken
    dsimp only at more
    split at more
    · rename_i further asks
      obtain ⟨⟨yes, mid⟩, taken, more⟩ := bind_eq_ok_iff.mp more
      obtain ⟨first, positive, yesDerives⟩ := ih.exists_of_skipSpace (commit_eq_ok_iff.mp taken)
      dsimp only at more
      split at more
      · rename_i last parts
        obtain ⟨⟨no, final⟩, otherwise, done⟩ := bind_eq_ok_iff.mp more
        cases done
        obtain ⟨second, negative, noDerives⟩ :=
          ih.exists_of_skipSpace (commit_eq_ok_iff.mp otherwise)
        have goesOn := Starts.mark "?" asks (positive.append (.mark ":" parts negative))
        exact ⟨_, starts.append goesOn, .conditional test yesDerives noDerives⟩
      · cases more
    · cases more
      exact ⟨asked, starts, .plain test⟩

theorem readChars_sound {cs : List Char} {e : Expr} (taken : readChars cs = .ok e) :
    ∃ tokens, Spells cs tokens ∧ Derives .ternary tokens e := by
  rw [readChars] at taken
  obtain ⟨⟨found, rest⟩, taken, done⟩ := bind_eq_ok_iff.mp taken
  obtain ⟨tokens, starts, derives⟩ := (readExpr_sound _).exists_of_skipSpace taken
  dsimp only at done
  split at done
  · rename_i nothing
    cases done
    exact ⟨tokens, ⟨rest, starts, skipSpace_eq_nil_iff.mp nothing⟩, derives⟩
  · cases done

theorem read_eq_ok_iff_readChars {source : String} {e : Expr} :
    read source = .ok e ↔ readChars source.toList = .ok e := by
  rw [read]
  cases readChars source.toList <;> simp [Except.mapError]

end Tabular.Expr
