import Tabular.Proofs.Expr.FormulaGrammar
import Tabular.Proofs.Expr.LiteralText
import Tabular.Proofs.Expr.Tokens

/-!
# Tokens with filled slots

The pieces of a formula are its slots and its other characters, and what is read has names in the
place of the slots. A formula that is spelled as tokens is cut into pieces where these end, so what
is read is spelled as the same tokens, up to names. The other way around a token that is read is
also one of the formula, if no slot stands next to a slot or to a character of a name: elsewhere one
token can come from several pieces.
-/

namespace Tabular

namespace Expr

variable {inside : Char → Bool} {fill : List Char → List Char} {cs body rest : List Char}

def Piece.text (fill : List Char → List Char) : Piece → List Char
  | .char c => [c]
  | .slot body => fill body

def Piece.isSlot : Piece → Bool
  | .char _ => false
  | .slot _ => true

def Piece.isWordy : Piece → Bool
  | .char c => isNameChar c
  | .slot _ => true

/-- No slot stands next to a slot or to a character of a name. -/
def SlotsApart (pieces : List Piece) : Prop :=
  pieces.IsChain fun left right =>
    ((left.isSlot || right.isSlot) && left.isWordy && right.isWordy) = false

instance (pieces : List Piece) : Decidable (SlotsApart pieces) :=
  inferInstanceAs (Decidable (pieces.IsChain _))

theorem toList_fillSlots (pieces : List Piece) :
    (fillSlots fill pieces).toList = pieces.flatMap (Piece.text fill) := by
  rw [fillSlots, String.toList_ofList]
  rfl

theorem flatMap_text_chars (cs : List Char) :
    (cs.map Piece.char).flatMap (Piece.text fill) = cs := by
  induction cs with
  | nil => rfl
  | cons c cs ih => rw [List.map_cons, List.flatMap_cons, ih]; rfl

theorem piecesAux_append (plain : '[' ∉ cs) (rest : List Char) :
    piecesAux inside 0 (cs ++ rest) = cs.map .char ++ piecesAux inside 0 rest := by
  induction cs with
  | nil => rfl
  | cons c cs ih =>
    obtain ⟨here, later⟩ := List.ne_and_not_mem_of_not_mem_cons plain
    have other : ¬SlotStarts inside c (cs ++ rest) := fun starts => here starts.1.symm
    rw [List.cons_append, piecesAux_of_not_slotStarts other, ih later]
    rfl

theorem piecesAux_length_append (cs rest : List Char) :
    piecesAux inside cs.length (cs ++ rest) = piecesAux inside 0 rest := by
  induction cs with
  | nil => rfl
  | cons c cs ih => exact ih

theorem piecesAux_slotText_append (filled : body ≠ []) (all : ∀ c ∈ body, inside c)
    (closes : inside ']' = false) (rest : List Char) :
    piecesAux inside 0 (slotText body ++ rest) = .slot body :: piecesAux inside 0 rest := by
  have spelled : slotText body ++ rest = '[' :: (body ++ ']' :: rest) := by simp [slotText]
  have taken : (body ++ ']' :: rest).takeWhile inside = body := takeWhile_body all closes
  have starts : SlotStarts inside '[' (body ++ ']' :: rest) :=
    slotStarts_iff.mpr ⟨rfl, body, rest, rfl, filled, all, closes⟩
  have behind : body ++ ']' :: rest = (body ++ [']']) ++ rest := by simp
  have length : body.length + 1 = (body ++ [']']).length := by simp
  rw [spelled, piecesAux_of_slotStarts starts, taken, behind, length, piecesAux_length_append]

theorem flatMap_text_slotText (skip : Nat) (cs : List Char) :
    (piecesAux inside skip cs).flatMap (Piece.text slotText) = cs.drop skip := by
  fun_induction piecesAux inside skip cs with
  | case1 => rw [List.drop_nil]; rfl
  | case2 _ _ _ ih => exact ih
  | case3 c cs taken starts ih =>
    obtain ⟨rfl, body, more, split, -, all, closes⟩ := slotStarts_iff.mp starts
    have same : taken = body := by
      change cs.takeWhile inside = body
      rw [split, takeWhile_body all closes]
    have behind : cs.drop (body.length + 1) = more := by simp [split, List.drop_append]
    rw [List.flatMap_cons, ih, same, behind, split]
    simp [Piece.text, slotText]
  | case4 c cs _ _ ih =>
    rw [List.flatMap_cons, ih]
    rfl

theorem SlotsApart.chars_append {pieces : List Piece} (apart : SlotsApart pieces)
    (last : ∀ c ∈ cs.getLast?, ∀ piece ∈ pieces.head?, piece.isSlot → isNameChar c = false) :
    SlotsApart (cs.map .char ++ pieces) := by
  refine List.isChain_append.mpr ⟨?_, apart, fun left final piece first => ?_⟩
  · rw [List.isChain_map]
    exact (List.pairwise_of_forall fun _ _ => rfl).isChain
  · rw [List.getLast?_map] at final
    obtain ⟨c, here, rfl⟩ := Option.map_eq_some_iff.mp final
    cases piece with
    | char d => rfl
    | slot body => simp [Piece.isWordy, last c here _ first rfl]

end Expr

namespace Formula

open Tabular.Expr (Token Piece Digits Blank Word Derives SlotsApart)

variable {cs digits body text rest : List Char} {token : Token} {tokens : List Token}
  {pieces : List Piece}

def fill (body : List Char) : List Char :=
  ((Decimal.readIndex? body).elim "" columnName).toList

def piecesOf (cs : List Char) : List Piece :=
  Expr.piecesAux (fun c => Unicode.isDecimalDigit c.toNat) 0 cs

/-- The text in which columns have names. -/
def filled (pieces : List Piece) : List Char :=
  pieces.flatMap (Piece.text fill)

def Readable (pieces : List Piece) : Prop :=
  ∀ body, .slot body ∈ pieces →
    Digits body ∧ Nat.ofDigitChars 10 body 0 < Decimal.indexBound

def columnsIn (pieces : List Piece) : List Nat :=
  (Expr.slots pieces).filterMap Decimal.readIndex?

theorem toList_named (source : String) :
    (named source).toList = filled (Formula.pieces source) :=
  Expr.toList_fillSlots (Formula.pieces source)

theorem isDecimalDigit_of_isDigit {c : Char} (digit : c.isDigit) :
    Unicode.isDecimalDigit c.toNat := by
  have front {first last n : Nat} (least : first ≤ n) (most : n ≤ last) (more : Unicode.Ranges) :
      Unicode.Ranges.contains ((first, last) :: more) n := by
    rw [Unicode.Ranges.contains, if_neg (Nat.not_lt.mpr least), if_pos most]
  obtain ⟨least, most⟩ := Char.isDigit_iff_toNat.mp digit
  exact front least most _

theorem readIndex?_of_digits (some : Digits digits)
    (fits : Nat.ofDigitChars 10 digits 0 < Decimal.indexBound) :
    Decimal.readIndex? digits = .some (Nat.ofDigitChars 10 digits 0) := by
  have read : Decimal.readNat? digits = .some (Nat.ofDigitChars 10 digits 0) :=
    if_pos ⟨some.1, List.all_eq_true.mpr some.2⟩
  have unsigned : ∀ more, digits ≠ '+' :: more := by
    rintro more rfl
    exact absurd (some.2 '+' List.mem_cons_self) (by decide)
  rw [Decimal.readIndex?, read, Option.filter_some_pos (by simpa using fits)]
  exact unsigned

theorem isDecimalDigit_closing : Unicode.isDecimalDigit ']'.toNat = false := by
  decide +kernel

theorem digits_of_readIndex? {n : Nat} (inner : ∀ c ∈ body, Unicode.isDecimalDigit c.toNat)
    (found : Decimal.readIndex? body = some n) :
    Digits body ∧ n = Nat.ofDigitChars 10 body 0 ∧ n < Decimal.indexBound := by
  unfold Decimal.readIndex? at found
  split at found
  · have sign : Unicode.isDecimalDigit '+'.toNat := inner '+' List.mem_cons_self
    exact absurd sign (by decide +kernel)
  · obtain ⟨read, fits⟩ := Option.filter_eq_some_iff.mp found
    unfold Decimal.readNat? at read
    split at read
    · rename_i digits
      exact ⟨⟨digits.1, List.all_eq_true.mp digits.2⟩, (Option.some.inj read).symm,
        by simpa using fits⟩
    · cases read

theorem fill_of_readIndex? {n : Nat} (found : Decimal.readIndex? body = some n) :
    fill body = (columnName n).toList := by
  rw [fill, found, Option.elim_some]

theorem piecesOf_append (plain : '[' ∉ cs) (rest : List Char) :
    piecesOf (cs ++ rest) = cs.map .char ++ piecesOf rest :=
  Expr.piecesAux_append plain rest

theorem bracket_notMem_of_blank {blanks : List Char} (blank : Blank blanks) : '[' ∉ blanks :=
  fun member => absurd (blank '[' member) (by decide)

theorem piecesOf_of_blank (blank : Blank rest) : piecesOf rest = rest.map .char := by
  have pieces := piecesOf_append (bracket_notMem_of_blank blank) []
  rw [List.append_nil] at pieces
  exact pieces.trans (List.append_nil _)

theorem piecesOf_slotText_append (some : Digits digits) (rest : List Char) :
    piecesOf (Expr.slotText digits ++ rest) = .slot digits :: piecesOf rest := by
  have all : ∀ c ∈ digits, Unicode.isDecimalDigit c.toNat := fun c member =>
    isDecimalDigit_of_isDigit (some.2 c member)
  exact Expr.piecesAux_slotText_append some.1 all isDecimalDigit_closing rest

theorem filled_chars_append (cs : List Char) (pieces : List Piece) :
    filled (cs.map .char ++ pieces) = cs ++ filled pieces := by
  rw [filled, List.flatMap_append, Expr.flatMap_text_chars]
  rfl

theorem filled_slot_cons (some : Digits digits)
    (fits : Nat.ofDigitChars 10 digits 0 < Decimal.indexBound) (pieces : List Piece) :
    filled (.slot digits :: pieces) =
      (columnName (Nat.ofDigitChars 10 digits 0)).toList ++ filled pieces := by
  rw [← fill_of_readIndex? (readIndex?_of_digits some fits)]
  rfl

theorem readable_chars_append : Readable (cs.map .char ++ pieces) ↔ Readable pieces := by
  simp [Readable]

theorem Readable.tail {piece : Piece} (readable : Readable (piece :: pieces)) : Readable pieces :=
  fun body member => readable body (List.mem_cons_of_mem _ member)

theorem columnsIn_chars_append (cs : List Char) (pieces : List Piece) :
    columnsIn (cs.map .char ++ pieces) = columnsIn pieces := by
  simp [columnsIn, Expr.slots]

theorem columnsIn_slot_cons (some : Digits digits)
    (fits : Nat.ofDigitChars 10 digits 0 < Decimal.indexBound) (pieces : List Piece) :
    columnsIn (.slot digits :: pieces) = Nat.ofDigitChars 10 digits 0 :: columnsIn pieces := by
  simp [columnsIn, Expr.slots, readIndex?_of_digits some fits]

/-- The pieces are the tokens, with blanks before each of them and after the last. No token ends
inside a piece. -/
inductive Cut : List Piece → List Token → Prop
  | nil {blanks : List Char} (blank : Blank blanks) : Cut (blanks.map .char) []
  | plain {blanks cs : List Char} {pieces : List Piece} {token : Token} {tokens : List Token}
      (blank : Blank blanks) (lexeme : Expr.Lexeme cs token) (known : token.Known)
      (bracketless : '[' ∉ cs) (more : Cut pieces tokens) :
      Cut (blanks.map .char ++ (cs.map .char ++ pieces)) (token :: tokens)
  | column {blanks digits : List Char} {pieces : List Piece} {tokens : List Token}
      (blank : Blank blanks) (some : Digits digits)
      (fits : Nat.ofDigitChars 10 digits 0 < Decimal.indexBound) (more : Cut pieces tokens) :
      Cut (blanks.map .char ++ .slot digits :: pieces)
        (.operand (.var (slotName (Nat.ofDigitChars 10 digits 0))) :: tokens)

theorem bracket_notMem (lexeme : Expr.Lexeme cs token) (known : token.Known)
    (bare : ∀ c ∈ cs, Expr.isQuote c = false) : '[' ∉ cs := by
  intro member
  cases lexeme with
  | mark => exact absurd (known.2 '[' member) (by decide)
  | whole some => exact absurd (some.2 '[' member) (by decide)
  | decimal some more =>
    rcases List.mem_append.mp member with front | behind
    · exact absurd (some.2 '[' front) (by decide)
    · rcases List.mem_cons.mp behind with point | behind
      · exact absurd point (by decide)
      · exact absurd (more.2 '[' behind) (by decide)
  | quoted isQuote inside =>
    exact absurd (Expr.isQuote_iff.mpr isQuote) (by simp [bare _ (List.mem_append_left _
      List.mem_cons_self)])
  | truth => exact absurd ((Expr.word_toString _).isNameChar '[' member) (by decide)
  | name word => exact absurd (word.isNameChar '[' member) (by decide)

theorem Starts.cut (starts : Starts text tokens rest) (blank : Blank rest)
    (known : ∀ token ∈ tokens, token.Known) (bare : ∀ c ∈ text, Expr.isQuote c = false) :
    Cut (piecesOf text) tokens := by
  induction starts with
  | nil =>
    rw [piecesOf_of_blank blank]
    exact .nil blank
  | cons blanks lexeme _ ih =>
    obtain ⟨here, later⟩ := List.forall_mem_cons.mp known
    obtain ⟨front, behind⟩ := List.forall_mem_append.mp bare
    obtain ⟨-, inside⟩ := List.forall_mem_append.mp front
    rw [List.append_assoc, piecesOf_append (bracket_notMem_of_blank blanks)]
    cases lexeme with
    | plain lexeme =>
      have bracketless := bracket_notMem lexeme here inside
      rw [piecesOf_append bracketless]
      exact .plain blanks lexeme here bracketless (ih blank later behind)
    | column some fits =>
      rw [piecesOf_slotText_append some]
      exact .column blanks some fits (ih blank later behind)

theorem Cut.spells (cut : Cut pieces tokens) :
    Spells (pieces.flatMap (Piece.text Expr.slotText)) tokens := by
  induction cut with
  | nil blank =>
    rw [Expr.flatMap_text_chars]
    exact ⟨_, .nil, blank⟩
  | plain blank lexeme _ _ _ ih =>
    obtain ⟨rest, starts, ends⟩ := ih
    rw [List.flatMap_append, List.flatMap_append, Expr.flatMap_text_chars, Expr.flatMap_text_chars,
      ← List.append_assoc]
    exact ⟨rest, .cons blank (.plain lexeme) starts, ends⟩
  | column blank some fits _ ih =>
    obtain ⟨rest, starts, ends⟩ := ih
    rw [List.flatMap_append, List.flatMap_cons, Expr.flatMap_text_chars, ← List.append_assoc]
    exact ⟨rest, .cons blank (.column some fits) starts, ends⟩

theorem Cut.filled (cut : Cut pieces tokens) :
    Expr.Spells (Formula.filled pieces) (tokens.map (Token.rename plainName)) := by
  induction cut with
  | nil blank =>
    rw [Formula.filled, Expr.flatMap_text_chars]
    exact ⟨_, .nil, blank⟩
  | plain blank lexeme _ bracketless _ ih =>
    obtain ⟨rest, starts, ends⟩ := ih
    rw [filled_chars_append, filled_chars_append, List.map_cons,
      rename_eq_self lexeme bracketless, ← List.append_assoc]
    exact ⟨rest, .cons blank lexeme starts, ends⟩
  | column blank some fits _ ih =>
    obtain ⟨rest, starts, ends⟩ := ih
    rw [filled_chars_append, filled_slot_cons some fits, List.map_cons, Token.rename, Expr.rename,
      plainName_slotName, ← List.append_assoc]
    exact ⟨rest, .cons blank (lexeme_columnName _) starts, ends⟩

theorem Cut.readable (cut : Cut pieces tokens) : Readable pieces := by
  induction cut with
  | nil => simp [Readable]
  | plain _ _ _ _ _ ih => exact readable_chars_append.mpr (readable_chars_append.mpr ih)
  | column _ some fits _ ih =>
    refine readable_chars_append.mpr fun body member => ?_
    rcases List.mem_cons.mp member with same | member
    · cases same
      exact ⟨some, fits⟩
    · exact ih body member

theorem Cut.columnOf?_occurrence (cut : Cut pieces tokens) {name : String}
    (occurs : name ∈ tokens.flatMap Token.occurrences) :
    columnOf? name = none ∨ ∃ column ∈ columnsIn pieces, name = slotName column := by
  induction cut with
  | nil => cases occurs
  | plain _ lexeme _ bracketless _ ih =>
    rw [columnsIn_chars_append, columnsIn_chars_append]
    rw [List.flatMap_cons, List.mem_append] at occurs
    refine occurs.elim (fun own => .inl ?_) ih
    cases lexeme with
    | mark | whole | decimal | quoted | truth => cases own
    | name =>
      obtain rfl := List.mem_singleton.mp own
      exact columnOf?_eq_none (by rwa [String.toList_ofList])
  | column _ some fits _ ih =>
    rw [columnsIn_chars_append, columnsIn_slot_cons some fits]
    rw [List.flatMap_cons, List.mem_append] at occurs
    rcases occurs with own | other
    · exact .inr ⟨_, List.mem_cons_self, List.mem_singleton.mp own⟩
    · refine (ih other).imp_right ?_
      rintro ⟨column, member, same⟩
      exact ⟨column, List.mem_cons_of_mem _ member, same⟩

theorem Cut.isWordy_of_mem_head? (cut : Cut pieces tokens)
    (first : ∀ token ∈ tokens.head?, token.isOperand = false) :
    ∀ piece ∈ pieces.head?, piece.isWordy = false := by
  have ofChars {chars : List Char} (noName : ∀ c ∈ chars, Expr.isNameChar c = false) :
      ∀ piece ∈ (chars.map Piece.char).head?, piece.isWordy = false := by
    intro piece head
    rw [List.head?_map] at head
    obtain ⟨c, here, rfl⟩ := Option.map_eq_some_iff.mp head
    exact noName c (List.mem_of_mem_head? here)
  cases cut with
  | nil blank => exact ofChars blank.isNameChar
  | @plain blanks cs _ _ _ blank lexeme known =>
    obtain ⟨filled, noName⟩ := lexeme.isNameChar_of_not_isOperand blank known (first _ rfl)
    have nonempty : (blanks ++ cs).map Piece.char ≠ [] := by simpa using filled
    rw [← List.append_assoc, ← List.map_append, List.head?_append_of_ne_nil _ nonempty]
    exact ofChars noName
  | column => cases first _ rfl

theorem Cut.slotsApart (cut : Cut pieces tokens) (separate : Expr.Separate tokens) :
    SlotsApart pieces := by
  have ofBlank {blanks : List Char} {pieces : List Piece} (blank : Blank blanks)
      (apart : SlotsApart pieces) : SlotsApart (blanks.map .char ++ pieces) :=
    apart.chars_append fun c last _ _ _ => blank.isNameChar c (List.mem_of_getLast? last)
  induction cut with
  | nil blank =>
    rw [← List.append_nil (List.map _ _)]
    exact ofBlank blank .nil
  | @plain _ _ _ token _ blank lexeme known _ more ih =>
    refine ofBlank blank ((ih separate.tail).chars_append fun c last piece first slot => ?_)
    cases token with
    | mark symbol => exact (lexeme.isNameChar_of_mark known).2 c (List.mem_of_getLast? last)
    | operand e =>
      -- Its last character can be one of a name, but then no slot follows.
      have noWord := more.isWordy_of_mem_head? (separate.next rfl) piece first
      cases piece with
      | char => cases slot
      | slot => cases noWord
  | column blank _ _ more ih =>
    refine ofBlank blank (List.isChain_cons.mpr ⟨fun piece first => ?_, ih separate.tail⟩)
    simp [more.isWordy_of_mem_head? (separate.next rfl) piece first]

theorem eq_nil_of_filled (readable : Readable pieces) (nothing : filled pieces = []) :
    pieces = [] := by
  cases pieces with
  | nil => rfl
  | cons piece pieces =>
    cases piece with
    | char c => cases nothing
    | slot body =>
      obtain ⟨some, fits⟩ := readable body List.mem_cons_self
      rw [filled_slot_cons some fits, columnName, String.toList_append] at nothing
      cases nothing

/-- The names of columns start with one letter, so nothing else is in characters without it. -/
theorem exists_of_filled_eq_append (readable : Readable pieces) (other : 'c' ∉ cs)
    (split : filled pieces = cs ++ text) :
    ∃ more, pieces = cs.map .char ++ more ∧ filled more = text := by
  induction cs generalizing pieces with
  | nil => exact ⟨pieces, rfl, split⟩
  | cons c cs ih =>
    obtain ⟨here, later⟩ := List.ne_and_not_mem_of_not_mem_cons other
    cases pieces with
    | nil => cases split
    | cons piece pieces =>
      cases piece with
      | char d =>
        obtain ⟨rfl, behind⟩ := List.cons.inj split
        obtain ⟨more, rfl, goesOn⟩ := ih readable.tail later behind
        exact ⟨more, rfl, goesOn⟩
      | slot body =>
        obtain ⟨some, fits⟩ := readable body List.mem_cons_self
        rw [filled_slot_cons some fits, columnName, String.toList_append] at split
        exact absurd (List.cons.inj split).1 here

/-- A word that has begun goes on with characters only, where slots stand apart. -/
theorem exists_of_filled_eq_word {d : Char} (apart : SlotsApart (.char d :: pieces))
    (begun : Expr.isNameChar d) (word : ∀ c ∈ cs, Expr.isNameChar c)
    (split : filled pieces = cs ++ text) :
    ∃ more, pieces = cs.map .char ++ more ∧ filled more = text := by
  induction cs generalizing pieces d with
  | nil => exact ⟨pieces, rfl, split⟩
  | cons c cs ih =>
    obtain ⟨here, later⟩ := List.forall_mem_cons.mp word
    obtain ⟨beside, apart⟩ := List.isChain_cons.mp apart
    cases pieces with
    | nil => cases split
    | cons piece pieces =>
      cases piece with
      | char e =>
        obtain ⟨rfl, behind⟩ := List.cons.inj split
        obtain ⟨more, rfl, goesOn⟩ := ih apart here later behind
        exact ⟨more, rfl, goesOn⟩
      | slot body => exact absurd (beside _ rfl) (by simp [Piece.isSlot, Piece.isWordy, begun])

theorem head?_filled (apart : ∀ piece ∈ pieces.head?, piece.isWordy = false) :
    ∀ c ∈ (filled pieces).head?, Expr.isNameChar c = false := by
  intro c head
  cases pieces with
  | nil => cases head
  | cons piece pieces =>
    have noWord := apart piece rfl
    cases piece with
    | char d =>
      cases head
      exact noWord
    | slot body => cases noWord

/-- A word in the text that is read is a word of the source, or it is the name of a column. -/
theorem exists_of_word (readable : Readable pieces) (apart : SlotsApart pieces)
    (word : Word cs) (stop : ∀ c ∈ text.head?, Expr.isNameChar c = false)
    (split : filled pieces = cs ++ text) :
    (∃ more, pieces = cs.map .char ++ more ∧ filled more = text) ∨
      ∃ digits more, pieces = .slot digits :: more ∧
        cs = (columnName (Nat.ofDigitChars 10 digits 0)).toList ∧ filled more = text := by
  have all := word.isNameChar
  obtain ⟨first, others, rfl, -⟩ := word
  cases pieces with
  | nil => cases split
  | cons piece pieces =>
    cases piece with
    | char d =>
      obtain ⟨rfl, behind⟩ := List.cons.inj split
      obtain ⟨begun, later⟩ := List.forall_mem_cons.mp all
      obtain ⟨more, rfl, goesOn⟩ := exists_of_filled_eq_word apart begun later behind
      exact .inl ⟨more, rfl, goesOn⟩
    | slot digits =>
      obtain ⟨some, fits⟩ := readable digits List.mem_cons_self
      obtain ⟨beside, -⟩ := List.isChain_cons.mp apart
      have next : ∀ piece ∈ pieces.head?, piece.isWordy = false := fun piece head => by
        simpa [Piece.isSlot, Piece.isWordy] using beside piece head
      -- Both the word and the name end where the characters of names do.
      rw [filled_slot_cons some fits] at split
      have name := (word_columnName (Nat.ofDigitChars 10 digits 0)).isNameChar
      have taken := congrArg (List.takeWhile Expr.isNameChar) split
      have dropped := congrArg (List.dropWhile Expr.isNameChar) split
      rw [Expr.takeWhile_append_of_stop name (head?_filled next),
        Expr.takeWhile_append_of_stop all stop] at taken
      rw [Expr.dropWhile_append_of_stop name (head?_filled next),
        Expr.dropWhile_append_of_stop all stop] at dropped
      exact .inr ⟨digits, pieces, rfl, taken.symm, dropped⟩

theorem exists_of_lexeme (readable : Readable pieces) (apart : SlotsApart pieces)
    (lexeme : Expr.Lexeme cs token) (known : token.Known)
    (bare : ∀ c ∈ cs, Expr.isQuote c = false)
    (stop : token.isOperand → ∀ c ∈ text.head?, Expr.isNameChar c = false)
    (split : filled pieces = cs ++ text) :
    (∃ more, pieces = cs.map .char ++ more ∧ filled more = text) ∨
      ∃ digits more, pieces = .slot digits :: more ∧
        token = .operand (.var (columnName (Nat.ofDigitChars 10 digits 0))) ∧
        filled more = text := by
  have ofOther (other : 'c' ∉ cs) := exists_of_filled_eq_append readable other split
  have digit {digits : List Char} (some : Digits digits) : 'c' ∉ digits := fun member =>
    absurd (some.2 'c' member) (by decide)
  cases lexeme with
  | mark => exact .inl (ofOther fun member => absurd (known.2 'c' member) (by decide))
  | whole some => exact .inl (ofOther (digit some))
  | decimal some more =>
    refine .inl (ofOther fun member => ?_)
    rcases List.mem_append.mp member with front | behind
    · exact digit some front
    · exact digit more (List.mem_of_ne_of_mem (by decide) behind)
  | quoted isQuote =>
    have quote := bare _ (List.mem_append_left _ List.mem_cons_self)
    exact absurd (Expr.isQuote_iff.mpr isQuote) (by simp [quote])
  | truth =>
    obtain found | ⟨digits, _, _, spelled, _⟩ :=
      exists_of_word readable apart (Expr.word_toString _) (stop rfl) split
    · exact .inl found
    · exact absurd spelled.symm (columnName_ne_toString _ _)
  | name word =>
    obtain found | ⟨digits, more, rfl, rfl, behind⟩ :=
      exists_of_word readable apart word (stop rfl) split
    · exact .inl found
    · exact .inr ⟨digits, more, rfl, by rw [String.ofList_toList], behind⟩

/-- Where slots stand apart, tokens that are read are tokens of the formula, up to names. -/
theorem exists_cut (readable : Readable pieces) (apart : SlotsApart pieces)
    (starts : Expr.Starts text tokens rest) (known : ∀ token ∈ tokens, token.Known)
    (separate : Expr.Separate tokens) (bare : ∀ c ∈ text, Expr.isQuote c = false)
    (blank : Blank rest) (split : filled pieces = text) :
    ∃ originals, Cut pieces originals ∧ originals.map (Token.rename plainName) = tokens := by
  have noName {blanks : List Char} (blank : Blank blanks) : 'c' ∉ blanks := fun member =>
    absurd (blank 'c' member) (by decide)
  -- The tokens are taken from the front, and with each of them the pieces that it comes from.
  induction starts generalizing pieces with
  | @nil rest =>
    have whole : filled pieces = rest ++ [] := by rw [split, List.append_nil]
    obtain ⟨more, rfl, nothing⟩ := exists_of_filled_eq_append readable (noName blank) whole
    obtain rfl := eq_nil_of_filled (readable_chars_append.mp readable) nothing
    rw [List.append_nil]
    exact ⟨[], .nil blank, rfl⟩
  | @cons blanks cs text rest token tokens blanks' lexeme starts ih =>
    obtain ⟨here, later⟩ := List.forall_mem_cons.mp known
    obtain ⟨front, behind⟩ := List.forall_mem_append.mp bare
    obtain ⟨-, inside⟩ := List.forall_mem_append.mp front
    have stop (operand : token.isOperand) : ∀ c ∈ text.head?, Expr.isNameChar c = false :=
      starts.isNameChar_of_mem_head? later (separate.next operand) blank
    rw [List.append_assoc] at split
    obtain ⟨pieces, rfl, visible⟩ := exists_of_filled_eq_append readable (noName blanks') split
    rw [readable_chars_append] at readable
    obtain ⟨-, apart, -⟩ := List.isChain_append.mp apart
    obtain ⟨more, rfl, goesOn⟩ | ⟨digits, more, rfl, rfl, goesOn⟩ :=
      exists_of_lexeme readable apart lexeme here inside stop visible
    · obtain ⟨-, apart, -⟩ := List.isChain_append.mp apart
      obtain ⟨originals, cut, same⟩ :=
        ih (readable_chars_append.mp readable) apart later separate.tail behind blank goesOn
      have bracketless := bracket_notMem lexeme here inside
      refine ⟨token :: originals, .plain blanks' lexeme here bracketless cut, ?_⟩
      rw [List.map_cons, rename_eq_self lexeme bracketless, same]
    · obtain ⟨some, fits⟩ := readable digits List.mem_cons_self
      obtain ⟨-, apart⟩ := List.isChain_cons.mp apart
      obtain ⟨originals, cut, same⟩ :=
        ih readable.tail apart later separate.tail behind blank goesOn
      refine ⟨_, .column blanks' some fits cut, ?_⟩
      rw [List.map_cons, Token.rename, Expr.rename, plainName_slotName, same]

end Formula

end Tabular
