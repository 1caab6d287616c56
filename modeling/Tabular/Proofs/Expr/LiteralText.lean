import Tabular.Condition
import Tabular.Formula
import Tabular.Proofs.Expr.Boundary
import Tabular.Proofs.Expr.Quotation

/-!
# Slots and quoted texts

Slots are filled before an expression is read, in quoted texts too. Where no slot meets a quoted
text, the texts of the expression are exactly what the source has between its quotes, and the slots
are those outside. A slot between quotes changes the text and refers to a value all the same.
-/

namespace Tabular

namespace Expr

variable {inside : Char → Bool} {fill : List Char → List Char} {skip : Nat} {cs rest : List Char}

def SlotStarts (inside : Char → Bool) (c : Char) (cs : List Char) : Prop :=
  c = '[' ∧ cs.takeWhile inside ≠ [] ∧ (cs.drop (cs.takeWhile inside).length).head? = some ']'

theorem piecesAux_of_slotStarts {c : Char} (starts : SlotStarts inside c cs) :
    piecesAux inside 0 (c :: cs) =
      .slot (cs.takeWhile inside) :: piecesAux inside ((cs.takeWhile inside).length + 1) cs :=
  if_pos starts

theorem piecesAux_of_not_slotStarts {c : Char} (other : ¬SlotStarts inside c cs) :
    piecesAux inside 0 (c :: cs) = .char c :: piecesAux inside 0 cs :=
  if_neg other

theorem takeWhile_body {body more : List Char} (all : ∀ d ∈ body, inside d)
    (closes : inside ']' = false) : (body ++ ']' :: more).takeWhile inside = body :=
  takeWhile_append_of_stop all fun _ first => Option.mem_some.mp first ▸ closes

theorem slotStarts_iff {c : Char} :
    SlotStarts inside c cs ↔ c = '[' ∧ ∃ body more, cs = body ++ ']' :: more ∧ body ≠ [] ∧
      (∀ d ∈ body, inside d) ∧ inside ']' = false := by
  have split : cs.drop (cs.takeWhile inside).length = cs.dropWhile inside := by
    have parts := congrArg (List.drop (cs.takeWhile inside).length)
      (List.takeWhile_append_dropWhile : cs.takeWhile inside ++ cs.dropWhile inside = cs)
    rw [List.drop_left] at parts
    exact parts.symm
  constructor
  · rintro ⟨opening, filled, closed⟩
    rw [split] at closed
    obtain ⟨more, behind⟩ := List.head?_eq_some_iff.mp closed
    have closes : inside ']' = false := by
      simpa [behind] using List.head?_dropWhile_not inside cs
    refine ⟨opening, cs.takeWhile inside, more, ?_, filled, fun d => List.mem_takeWhile_imp, closes⟩
    rw [← behind, List.takeWhile_append_dropWhile]
  · rintro ⟨opening, body, more, rfl, filled, all, closes⟩
    rw [SlotStarts, takeWhile_body all closes, List.drop_left]
    exact ⟨opening, filled, rfl⟩

theorem SlotStarts.append {c : Char} (starts : SlotStarts inside c cs) (rest : List Char) :
    SlotStarts inside c (cs ++ rest) := by
  obtain ⟨opening, body, more, rfl, filled, inner⟩ := slotStarts_iff.mp starts
  exact slotStarts_iff.mpr ⟨opening, body, more ++ rest, by simp, filled, inner⟩

theorem SlotStarts.of_append {c mark : Char} (starts : SlotStarts inside c (cs ++ mark :: rest))
    (closing : mark ≠ ']') (apart : mark ∉ (cs ++ mark :: rest).takeWhile inside) :
    SlotStarts inside c cs ∧ (cs ++ mark :: rest).takeWhile inside = cs.takeWhile inside ∧
      (cs.takeWhile inside).length < cs.length := by
  obtain ⟨opening, body, more, split, filled, all, closes⟩ := slotStarts_iff.mp starts
  rw [split, takeWhile_body all closes] at apart ⊢
  -- The mark is neither in the slot nor the bracket that closes it, so the slot ends before.
  have behind : ∃ between, cs = body ++ ']' :: between := by
    rcases List.append_eq_append_iff.mp split with ⟨piece, rfl, same⟩ | ⟨piece, rfl, same⟩
    · cases piece with
      | nil => exact absurd (List.cons.inj same).1 closing
      | cons d piece =>
        obtain ⟨rfl, -⟩ := List.cons.inj same
        exact absurd (by simp) apart
    · cases piece with
      | nil => exact absurd (List.cons.inj same).1.symm closing
      | cons d piece =>
        obtain ⟨rfl, -⟩ := List.cons.inj same
        exact ⟨piece, rfl⟩
  obtain ⟨between, rfl⟩ := behind
  rw [takeWhile_body all closes]
  exact ⟨slotStarts_iff.mpr ⟨opening, body, between, rfl, filled, all, closes⟩, rfl, by simp⟩

theorem mem_of_char_mem_piecesAux {c : Char} (member : .char c ∈ piecesAux inside skip cs) :
    c ∈ cs := by
  fun_induction piecesAux inside skip cs with
  | case1 => cases member
  | case2 _ _ _ ih => exact List.mem_cons_of_mem _ (ih member)
  | case3 _ _ _ _ ih =>
    rcases List.mem_cons.mp member with other | later
    · cases other
    · exact List.mem_cons_of_mem _ (ih later)
  | case4 _ _ _ _ ih =>
    rcases List.mem_cons.mp member with here | later
    · cases here
      exact List.mem_cons_self
    · exact List.mem_cons_of_mem _ (ih later)

theorem inside_of_mem_slots {body : List Char} (member : body ∈ slots (piecesAux inside skip cs)) :
    ∀ c ∈ body, inside c := by
  fun_induction piecesAux inside skip cs with
  | case1 => cases member
  | case2 _ _ _ ih => exact ih member
  | case3 _ _ _ _ ih =>
    rcases List.mem_cons.mp member with rfl | later
    · exact fun c => List.mem_takeWhile_imp
    · exact ih later
  | case4 _ _ _ _ ih => exact ih member

/-- A mark that is no bracket and stands in no slot parts the pieces in front of it from those
behind it. -/
theorem piecesAux_append_cons {mark : Char} (opening : mark ≠ '[') (closing : mark ≠ ']')
    (short : skip ≤ cs.length)
    (apart : ∀ body ∈ slots (piecesAux inside skip (cs ++ mark :: rest)), mark ∉ body) :
    piecesAux inside skip (cs ++ mark :: rest) =
      piecesAux inside skip cs ++ .char mark :: piecesAux inside 0 rest := by
  induction cs generalizing skip with
  | nil =>
    obtain rfl := Nat.eq_zero_of_le_zero short
    simp [piecesAux, opening]
  | cons c cs ih =>
    cases skip with
    | succ skip => exact ih (Nat.le_of_succ_le_succ short) apart
    | zero =>
      rw [List.cons_append] at apart ⊢
      -- A slot that starts here ends in front of the mark, with or without what follows that.
      by_cases starts : SlotStarts inside c (cs ++ mark :: rest)
      · rw [piecesAux_of_slotStarts starts] at apart ⊢
        obtain ⟨here, later⟩ := List.forall_mem_cons.mp apart
        obtain ⟨front, same, shorter⟩ := starts.of_append closing here
        rw [same] at later ⊢
        rw [piecesAux_of_slotStarts front, ih shorter later, List.cons_append]
      · have other : ¬SlotStarts inside c cs := fun front => starts (front.append _)
        rw [piecesAux_of_not_slotStarts starts] at apart ⊢
        rw [piecesAux_of_not_slotStarts other, ih (Nat.zero_le _) apart, List.cons_append]

/-- The characters of a text with its slots filled. -/
def fillChars (inside : Char → Bool) (fill : List Char → List Char) (cs : List Char) : List Char :=
  (fillSlots fill (piecesAux inside 0 cs)).toList

def slotsIn (inside : Char → Bool) (cs : List Char) : List (List Char) :=
  slots (piecesAux inside 0 cs)

theorem fillChars_append_cons {mark : Char} (opening : mark ≠ '[') (closing : mark ≠ ']')
    (apart : ∀ body ∈ slotsIn inside (cs ++ mark :: rest), mark ∉ body) :
    fillChars inside fill (cs ++ mark :: rest) =
      fillChars inside fill cs ++ mark :: fillChars inside fill rest := by
  rw [fillChars, piecesAux_append_cons opening closing (Nat.zero_le _) apart]
  simp [fillChars, fillSlots]

theorem slotsIn_append_cons {mark : Char} (opening : mark ≠ '[') (closing : mark ≠ ']')
    (apart : ∀ body ∈ slotsIn inside (cs ++ mark :: rest), mark ∉ body) :
    slotsIn inside (cs ++ mark :: rest) = slotsIn inside cs ++ slotsIn inside rest := by
  rw [slotsIn, piecesAux_append_cons opening closing (Nat.zero_le _) apart]
  simp [slotsIn, slots]

theorem fillChars_eq_self (noSlots : slotsIn inside cs = []) : fillChars inside fill cs = cs := by
  induction cs with
  | nil => rfl
  | cons c cs ih =>
    by_cases starts : SlotStarts inside c cs
    · rw [slotsIn, piecesAux_of_slotStarts starts] at noSlots
      cases noSlots
    · rw [slotsIn, piecesAux_of_not_slotStarts starts] at noSlots
      rw [fillChars, piecesAux_of_not_slotStarts starts]
      have later : fillChars inside fill cs = cs := ih noSlots
      rw [fillChars] at later
      simpa [fillSlots] using later

theorem mem_fillChars {c : Char} (member : c ∈ fillChars inside fill cs) :
    c ∈ cs ∨ ∃ body, c ∈ fill body := by
  rw [fillChars, fillSlots, String.toList_ofList] at member
  obtain ⟨piece, known, here⟩ := List.mem_flatMap.mp member
  cases piece with
  | char d =>
    obtain rfl := List.mem_singleton.mp here
    exact .inl (mem_of_char_mem_piecesAux known)
  | slot body => exact .inr ⟨body, here⟩

def SlotsQuoteless (inside : Char → Bool) (cs : List Char) : Prop :=
  ∀ body ∈ slotsIn inside cs, ∀ c ∈ body, isQuote c = false

theorem ne_bracket_of_isQuote {c : Char} (quote : isQuote c) : c ≠ '[' ∧ c ≠ ']' := by
  rcases isQuote_iff.mp quote with rfl | rfl <;> decide

theorem SlotsQuoteless.not_mem {mark : Char} (clear : SlotsQuoteless inside cs)
    (quote : isQuote mark) : ∀ body ∈ slotsIn inside cs, mark ∉ body := by
  intro body known member
  exact absurd quote (by simp [clear body known mark member])

theorem SlotsQuoteless.behind {mark : Char} (clear : SlotsQuoteless inside (cs ++ mark :: rest))
    (quote : isQuote mark) : SlotsQuoteless inside rest := by
  obtain ⟨opening, closing⟩ := ne_bracket_of_isQuote quote
  intro body member
  refine clear body ?_
  rw [slotsIn_append_cons opening closing (clear.not_mem quote)]
  exact List.mem_append_right _ member

/-- The state of a cut into stretches: what is taken already does not end the stretch. -/
structure Taken (quote : Option Char) (taken : List Char) : Prop where
  opened : ∀ c ∈ quote, isQuote c
  inner : ∀ c ∈ taken, endsStretch quote c = false

theorem Taken.isQuote {quote : Option Char} {taken : List Char} (state : Taken quote taken)
    {c : Char} (last : endsStretch quote c) : isQuote c := by
  cases quote with
  | none => exact last
  | some quote =>
    obtain rfl : c = quote := eq_of_beq last
    exact state.opened c rfl

theorem Taken.concat {quote : Option Char} {taken : List Char} (state : Taken quote taken)
    {c : Char} (goesOn : endsStretch quote c = false) : Taken quote (taken ++ [c]) :=
  ⟨state.opened, List.forall_mem_append.mpr ⟨state.inner, List.forall_mem_singleton.mpr goesOn⟩⟩

theorem Taken.fillChars {quote : Option Char} {taken : List Char} (state : Taken quote taken)
    (plain : ∀ body, ∀ c ∈ fill body, Expr.isQuote c = false) :
    Taken quote (fillChars inside fill taken) := by
  refine ⟨state.opened, fun c member => ?_⟩
  rcases mem_fillChars member with known | ⟨body, filled⟩
  · exact state.inner c known
  · by_contra last
    have quote := state.isQuote (eq_true_of_ne_false last)
    exact absurd quote (by simp [plain body c filled])

theorem Taken.next {quote : Option Char} {taken : List Char} (state : Taken quote taken) {c : Char}
    (last : endsStretch quote c) : Taken (quoteAfter quote c) [] := by
  refine ⟨fun d opened => ?_, by simp⟩
  cases quote with
  | none =>
    obtain rfl : c = d := Option.some.inj opened
    exact state.isQuote last
  | some quote => cases opened

theorem stretchesFrom_fillChars (plain : ∀ body, ∀ c ∈ fill body, isQuote c = false)
    {quote : Option Char} {taken : List Char} (state : Taken quote taken)
    (clear : SlotsQuoteless inside (taken ++ cs)) :
    stretchesFrom quote [] (fillChars inside fill (taken ++ cs)) =
      (stretchesFrom quote taken cs).map (Stretch.map (fillChars inside fill)) := by
  induction cs generalizing quote taken with
  | nil =>
    rw [List.append_nil, stretchesFrom_eq_singleton (state.fillChars plain).inner]
    rfl
  | cons c cs ih =>
    by_cases last : endsStretch quote c
    · -- No slot goes over the quote, so the stretch before it is filled by itself.
      have isQuote := state.isQuote last
      obtain ⟨opening, closing⟩ := ne_bracket_of_isQuote isQuote
      rw [fillChars_append_cons opening closing (clear.not_mem isQuote),
        stretchesFrom_append (state.fillChars plain).inner, stretchesFrom_cons_of_ends last,
        stretchesFrom_cons_of_ends last, List.map_cons, Stretch.map_of,
        ← ih (state.next last) (clear.behind isQuote)]
      rfl
    · have goesOn : endsStretch quote c = false := eq_false_of_ne_true last
      rw [stretchesFrom, if_neg last, ← ih (state.concat goesOn) (by simpa using clear)]
      simp

theorem slotsIn_eq_flatMap {quote : Option Char} {taken : List Char} (state : Taken quote taken)
    (clear : SlotsQuoteless inside (taken ++ cs)) :
    slotsIn inside (taken ++ cs) =
      (stretchesFrom quote taken cs).flatMap fun stretch => slotsIn inside stretch.chars := by
  induction cs generalizing quote taken with
  | nil => simp [stretchesFrom, Stretch.chars]
  | cons c cs ih =>
    by_cases last : endsStretch quote c
    · have isQuote := state.isQuote last
      obtain ⟨opening, closing⟩ := ne_bracket_of_isQuote isQuote
      rw [slotsIn_append_cons opening closing (clear.not_mem isQuote),
        stretchesFrom_cons_of_ends last, List.flatMap_cons, Stretch.chars_of,
        ← ih (state.next last) (clear.behind isQuote)]
      rfl
    · have goesOn : endsStretch quote c = false := eq_false_of_ne_true last
      rw [stretchesFrom, if_neg last, ← ih (state.concat goesOn) (by simpa using clear)]
      simp

theorem taken_nil : Taken none [] :=
  ⟨nofun, nofun⟩

theorem filterMap_quoted?_map (change : List Char → List Char) (stretches : List Stretch) :
    (stretches.map (Stretch.map change)).filterMap Stretch.quoted? =
      (stretches.filterMap Stretch.quoted?).map fun text => String.ofList (change text.toList) := by
  rw [List.filterMap_map, List.map_filterMap]
  refine congrArg (List.filterMap · stretches) (funext fun stretch => ?_)
  cases stretch <;> simp [Stretch.map, Stretch.quoted?]

theorem flatMap_slotsIn_chars {stretches : List Stretch}
    (literal : ∀ text ∈ stretches.filterMap Stretch.quoted?, slots (pieces inside text) = []) :
    (stretches.flatMap fun stretch => slotsIn inside stretch.chars) =
      (stretches.filterMap Stretch.bare?).flatMap fun text => slots (pieces inside text) := by
  induction stretches with
  | nil => rfl
  | cons stretch stretches ih =>
    cases stretch with
    | bare cs =>
      rw [List.flatMap_cons, ih literal]
      simp [Stretch.chars, Stretch.bare?, slotsIn, pieces]
    | quoted cs =>
      obtain ⟨here, later⟩ := List.forall_mem_cons.mp literal
      have none : slotsIn inside cs = [] := by simpa [slotsIn, pieces] using here
      rw [List.flatMap_cons, ih later, Stretch.chars, none]
      rfl

variable {source : String} {e : Expr}

/-- The texts of an expression with filled slots are what its source has between quotes, with the
slots filled there too. -/
theorem texts_of_read_fillSlots (plain : ∀ body, ∀ c ∈ fill body, isQuote c = false)
    (clear : ∀ body ∈ slots (pieces inside source), ∀ c ∈ body, isQuote c = false)
    (taken : read (fillSlots fill (pieces inside source)) = .ok e) :
    e.texts = (quotedTexts source).map fun text => fillSlots fill (pieces inside text) := by
  have filled := stretchesFrom_fillChars plain taken_nil clear
  rw [texts_of_read taken, quotedTexts, stretches]
  refine (congrArg (List.filterMap Stretch.quoted?) filled).trans ?_
  rw [filterMap_quoted?_map]
  refine List.map_congr_left fun text _ => ?_
  rw [fillChars, String.ofList_toList]
  rfl

theorem texts_of_read_literal (plain : ∀ body, ∀ c ∈ fill body, isQuote c = false)
    (clear : ∀ body ∈ slots (pieces inside source), ∀ c ∈ body, isQuote c = false)
    (literal : ∀ text ∈ quotedTexts source, slots (pieces inside text) = [])
    (taken : read (fillSlots fill (pieces inside source)) = .ok e) :
    e.texts = quotedTexts source := by
  rw [texts_of_read_fillSlots plain clear taken]
  refine (List.map_congr_left fun text member => ?_).trans (List.map_id _)
  exact String.toList_inj.mp (fillChars_eq_self (literal text member))

theorem slots_eq_flatMap_bareTexts
    (clear : ∀ body ∈ slots (pieces inside source), ∀ c ∈ body, isQuote c = false)
    (literal : ∀ text ∈ quotedTexts source, slots (pieces inside text) = []) :
    slots (pieces inside source) =
      (bareTexts source).flatMap fun text => slots (pieces inside text) := by
  have all : slots (pieces inside source) =
      (stretches source).flatMap fun stretch => slotsIn inside stretch.chars :=
    slotsIn_eq_flatMap taken_nil clear
  rw [all, flatMap_slotsIn_chars literal, bareTexts]

end Expr

theorem isQuote_of_mem_natText {n : Nat} {c : Char} (member : c ∈ (Decimal.natText n).toList) :
    Expr.isQuote c = false := by
  rw [Decimal.natText, String.toList_ofList] at member
  exact Expr.isQuote_eq_false_of
    (Nat.isDigit_of_mem_toDigits (by decide) (by decide) member) rfl rfl

theorem Formula.isQuote_of_mem_fill (body : List Char) :
    ∀ c ∈ ((Decimal.readIndex? body).elim "" columnName).toList, Expr.isQuote c = false := by
  cases Decimal.readIndex? body with
  | none => simp
  | some column =>
    rw [Option.elim_some, columnName, String.toList_append]
    exact List.forall_mem_append.mpr ⟨Expr.forall_isQuote_eq_false rfl, fun c =>
      isQuote_of_mem_natText⟩

theorem Formula.isQuote_of_mem_slot (source : String) :
    ∀ body ∈ Expr.slots (pieces source), ∀ c ∈ body, Expr.isQuote c = false := by
  intro body member c known
  have digit : Unicode.isDecimalDigit c.toNat := Expr.inside_of_mem_slots member c known
  by_contra quote
  rcases Expr.isQuote_iff.mp (eq_true_of_ne_false quote) with rfl | rfl
  · exact absurd digit (by decide +kernel)
  · exact absurd digit (by decide +kernel)

theorem Condition.isQuote_of_mem_fill (place : Nat) :
    ∀ c ∈ (pathName place).toList, Expr.isQuote c = false := by
  rw [pathName, String.toList_append]
  exact List.forall_mem_append.mpr ⟨Expr.forall_isQuote_eq_false rfl, fun c =>
      isQuote_of_mem_natText⟩

theorem Formula.read_eq_ok {source : String} {formula : Formula}
    (taken : read source = .ok formula) :
    Expr.read (named source) = .ok formula.expr ∧
      formula.columns =
        Expr.firsts ((Expr.slots (pieces source)).filterMap Decimal.readIndex?) := by
  unfold read at taken
  dsimp only at taken
  split at taken
  · cases taken
  · cases found : Expr.read (named source) with
    | error error => simp [found, Except.mapError, bind, Except.bind] at taken
    | ok e =>
      simp only [found, Except.mapError, bind, Except.bind] at taken
      cases taken
      exact ⟨rfl, rfl⟩

theorem Condition.read_eq_ok {source : String} {condition : Condition}
    (taken : read source = .ok condition) :
    Expr.read (named source) = .ok condition.expr ∧
      condition.paths = (keys source).map fun key => KeyPath.split (String.ofList key) := by
  unfold read at taken
  cases found : Expr.read (named source) with
  | error error => simp [found, Except.mapError, bind, Except.bind] at taken
  | ok e =>
    simp only [found, Except.mapError, bind, Except.bind] at taken
    cases taken
    exact ⟨rfl, rfl⟩

/-- Where no slot meets a quoted text, the texts of a formula and of a condition are what the source
has between quotes, character for character, and the columns and key paths that they refer to are
those of the slots outside quotes. The slots of a formula hold digits only, those of a condition can
hold a quote. -/
theorem texts_eq_quotedTexts (source : String) :
    (∀ formula, Formula.read source = .ok formula →
      (∀ text ∈ Expr.quotedTexts source, Expr.slots (Formula.pieces text) = []) →
      formula.expr.texts = Expr.quotedTexts source ∧
        formula.columns = Expr.firsts (((Expr.bareTexts source).flatMap fun text =>
          Expr.slots (Formula.pieces text)).filterMap Decimal.readIndex?)) ∧
    (∀ condition, Condition.read source = .ok condition →
      (∀ text ∈ Expr.quotedTexts source, Expr.slots (Condition.pieces text) = []) →
      (∀ body ∈ Expr.slots (Condition.pieces source), ∀ c ∈ body, Expr.isQuote c = false) →
      condition.expr.texts = Expr.quotedTexts source ∧
        condition.paths = (Expr.firsts (((Expr.bareTexts source).flatMap fun text =>
          Expr.slots (Condition.pieces text)).map Text.trimChars)).map fun key =>
            KeyPath.split (String.ofList key)) := by
  constructor
  · intro formula taken literal
    obtain ⟨accepted, columns⟩ := Formula.read_eq_ok taken
    have clear := Formula.isQuote_of_mem_slot source
    have outside := Expr.slots_eq_flatMap_bareTexts clear literal
    refine ⟨Expr.texts_of_read_literal Formula.isQuote_of_mem_fill clear literal accepted, ?_⟩
    rw [columns]
    exact congrArg (fun slots => Expr.firsts (slots.filterMap Decimal.readIndex?)) outside
  · intro condition taken literal clear
    obtain ⟨accepted, paths⟩ := Condition.read_eq_ok taken
    have outside := Expr.slots_eq_flatMap_bareTexts clear literal
    refine ⟨Expr.texts_of_read_literal (fun _ => Condition.isQuote_of_mem_fill _) clear literal
      accepted, ?_⟩
    rw [paths, Condition.keys]
    exact congrArg (fun slots => (Expr.firsts (slots.map Text.trimChars)).map fun key =>
      KeyPath.split (String.ofList key)) outside

theorem eq_ok_of_toOption {ε α : Type} {result : Except ε α} {a : α}
    (found : result.toOption = some a) : result = .ok a := by
  cases result with
  | error => cases found
  | ok => exact congrArg Except.ok (Option.some.inj found)

/-- A formula with a bracket between quotes, and a condition with quotes of the other kind inside
quotes. -/
theorem texts_eq_quotedTexts_brackets :
    let formula : Formula := ⟨"[0] + ' [x] \"'", .binary .add (.var "col0") (.text " [x] \""), [0]⟩
    let condition : Condition :=
      ⟨"[a.b] =~ \"it's ]\"", .binary .like (.var "key0") (.text "it's ]"), [["a", "b"]]⟩
    Formula.read formula.source = .ok formula ∧
    formula.expr.texts = Expr.quotedTexts formula.source ∧
    Condition.read condition.source = .ok condition ∧
    condition.expr.texts = Expr.quotedTexts condition.source := by
  intro formula condition
  have readsFormula : Formula.read formula.source = .ok formula :=
    eq_ok_of_toOption (by decide +kernel)
  have readsCondition : Condition.read condition.source = .ok condition :=
    eq_ok_of_toOption (by decide +kernel)
  have ofFormula := (texts_eq_quotedTexts formula.source).1 formula readsFormula
    (by decide +kernel)
  have slots : Expr.slots (Condition.pieces condition.source) = ["a.b".toList] := by decide +kernel
  have quoteless : ∀ body ∈ Expr.slots (Condition.pieces condition.source),
      ∀ c ∈ body, Expr.isQuote c = false := by
    rw [slots]
    exact List.forall_mem_singleton.mpr (Expr.forall_isQuote_eq_false rfl)
  have ofCondition := (texts_eq_quotedTexts condition.source).2 condition readsCondition
    (by decide +kernel) quoteless
  exact ⟨readsFormula, ofFormula.1, readsCondition, ofCondition.1⟩

/-- Between quotes a slot is filled as well: a class of characters becomes a name, and it is taken
for a key path; a column becomes its name. -/
theorem texts_ne_quotedTexts :
    let condition : Condition := ⟨"[host] =~ '^[0-9]+'",
      .binary .like (.var "key0") (.text "^key1+"), [["host"], ["0-9"]]⟩
    let formula : Formula := ⟨"'[0]'", .text "col0", [0]⟩
    Condition.read condition.source = .ok condition ∧
    Expr.quotedTexts condition.source = ["^[0-9]+"] ∧
    condition.expr.texts ≠ Expr.quotedTexts condition.source ∧
    Formula.read formula.source = .ok formula ∧
    formula.expr.texts ≠ Expr.quotedTexts formula.source :=
  ⟨eq_ok_of_toOption (by decide +kernel), by decide +kernel, by decide +kernel,
    eq_ok_of_toOption (by decide +kernel), by decide +kernel⟩

end Tabular
