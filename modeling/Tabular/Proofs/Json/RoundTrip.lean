import Tabular.Json.Printer
import Tabular.Json.Reader
import Tabular.Proofs.Keyed

/-!
# JSON text is read back

The compact text of a value is read as that value, with anything behind it. A string is written with
escapes for its quotes, backslashes and control characters, and the reader takes each of them for
the character that it stands for. Numbers are left out here.
-/

namespace Tabular.Json

theorem hexDigit?_hexDigit : ∀ n < 16, hexDigit? (hexDigit n) = some n := by
  decide

theorem four_le_byteCount (a b c d : Char) (rest : List Char) :
    4 ≤ byteCount (a :: b :: c :: d :: rest) := by
  have grows (cs : List Char) (count : Nat) :
      count ≤ cs.foldl (fun count c => count + c.utf8Size) count := by
    induction cs generalizing count with
    | nil => exact Nat.le_refl _
    | cons c cs ih => exact Nat.le_trans (Nat.le_add_right _ _) (ih _)
  have := grows rest (0 + a.utf8Size + b.utf8Size + c.utf8Size + d.utf8Size)
  have := a.utf8Size_pos
  have := b.utf8Size_pos
  have := c.utf8Size_pos
  have := d.utf8Size_pos
  rw [byteCount, List.foldl_cons, List.foldl_cons, List.foldl_cons, List.foldl_cons]
  omega

theorem readUnicodeEscape_control {c : Char} (control : c.toNat < 0x20) (rest : List Char) :
    readUnicodeEscape ('0' :: '0' :: hexDigit (c.toNat / 16) :: hexDigit (c.toNat % 16) :: rest) =
      .ok (c, rest) := by
  have digits : fourHexDigits? ['0', '0', hexDigit (c.toNat / 16), hexDigit (c.toNat % 16)] =
      some c.toNat := by
    have zero : hexDigit? '0' = some 0 := by decide
    simp only [fourHexDigits?, zero, hexDigit?_hexDigit (c.toNat / 16) (by omega),
      hexDigit?_hexDigit (c.toNat % 16) (by omega), Option.bind_eq_bind, Option.bind_some,
      Option.pure_def, Option.some.injEq]
    omega
  have read : readHex
      ('0' :: '0' :: hexDigit (c.toNat / 16) :: hexDigit (c.toNat % 16) :: rest) =
        .ok (c.toNat, rest) := by
    have long := four_le_byteCount '0' '0' (hexDigit (c.toNat / 16)) (hexDigit (c.toNat % 16)) rest
    rw [readHex, if_neg (by omega)]
    simp [digits]
  have leading : isLeadingSurrogate c.toNat = false := by
    simp only [isLeadingSurrogate, Bool.and_eq_false_iff, decide_eq_false_iff_not]
    omega
  have trailing : isTrailingSurrogate c.toNat = false := by
    simp only [isTrailingSurrogate, Bool.and_eq_false_iff, decide_eq_false_iff_not]
    omega
  simp [readUnicodeEscape, read, leading, trailing, bind, Except.bind, pure, Except.pure]

/-- The reader takes a written character for one character of the string. -/
theorem readStringAux_escapeChar (fuel : Nat) (soFar : List Char) (c : Char) (rest : List Char) :
    readStringAux readEscape (fuel + 1) soFar (escapeChar c ++ rest) =
      readStringAux readEscape fuel (c :: soFar) rest := by
  unfold escapeChar
  split
  case h_8 _ quote backslash _ _ _ _ _ =>
    split
    · rename_i control
      have escaped := readUnicodeEscape_control control rest
      simp [readStringAux, controlEscape, readEscape, escaped, bind, Except.bind]
    · rename_i visible
      have noQuote : c ≠ '"' := quote
      have noBackslash : c ≠ '\\' := backslash
      simp [readStringAux, noQuote, noBackslash, visible]
  all_goals rfl

theorem readStringAux_flatMap (cs soFar rest : List Char) {fuel : Nat} (enough : cs.length < fuel) :
    readStringAux readEscape fuel soFar (cs.flatMap escapeChar ++ '"' :: rest) =
      .ok (soFar.reverse ++ cs, rest) := by
  induction cs generalizing soFar fuel with
  | nil =>
    obtain ⟨fuel, rfl⟩ := Nat.exists_eq_add_of_lt enough
    simp [readStringAux]
  | cons c cs ih =>
    obtain ⟨fuel, rfl⟩ := Nat.exists_eq_succ_of_ne_zero (Nat.ne_zero_of_lt enough)
    have fewer : cs.length < fuel := Nat.lt_of_succ_lt_succ enough
    rw [List.flatMap_cons, List.append_assoc, readStringAux_escapeChar, ih _ fewer]
    simp

theorem length_le_length_flatMap_escapeChar (cs : List Char) :
    cs.length ≤ (cs.flatMap escapeChar).length := by
  have filled (c : Char) : 1 ≤ (escapeChar c).length := by
    unfold escapeChar
    split
    case h_8 => split <;> simp [controlEscape]
    all_goals simp
  induction cs with
  | nil => simp
  | cons c cs ih =>
    have := filled c
    simp only [List.flatMap_cons, List.length_append, List.length_cons]
    omega

theorem readString_quoted (s : String) (rest : List Char) :
    readString (s.toList.flatMap escapeChar ++ '"' :: rest) = .ok (s, rest) := by
  have enough : s.toList.length < (s.toList.flatMap escapeChar ++ '"' :: rest).length + 1 := by
    have := length_le_length_flatMap_escapeChar s.toList
    rw [List.length_append]
    omega
  rw [readString, readStringAux_flatMap s.toList [] rest enough]
  simp [bind, Except.bind, pure, Except.pure]

theorem skipSpace_cons {c : Char} (visible : isSpace c = false) (cs : List Char) :
    skipSpace (c :: cs) = c :: cs := by
  simp [skipSpace, visible]

/-- A text that does not go on with a number in front of it. -/
def EndsNumber (rest : List Char) : Prop :=
  ∀ c ∈ rest.head?, c.isDigit = false ∧ c ∉ ['.', 'e', 'E']

/-- The reader takes the text of a value from the front for some result, and the text starts with
what neither a blank nor the end of a list is. -/
structure TakenBy (element : Reader Json) (value result : Json) : Prop where
  starts : ∃ c cs, value.chars = c :: cs ∧ isSpace c = false ∧ c ≠ ']'
  taken : ∀ rest, EndsNumber rest → element (value.chars ++ rest) = .ok (result, rest)

def MemberTakenBy (element : Reader Json) (member result : String × Json) : Prop :=
  member.1 = result.1 ∧ TakenBy element member.2 result.2

theorem endsNumber_nil : EndsNumber [] := by
  simp [EndsNumber]

theorem endsNumber_cons {c : Char} (other : c.isDigit = false ∧ c ∉ ['.', 'e', 'E'])
    (rest : List Char) : EndsNumber (c :: rest) := by
  simpa [EndsNumber] using other

theorem endsNumber_itemChars (items : List Json) (rest : List Char) :
    EndsNumber (itemChars items ++ ']' :: rest) := by
  cases items with
  | nil => exact endsNumber_cons (by decide) _
  | cons item items =>
    rw [itemChars, List.cons_append, List.cons_append]
    exact endsNumber_cons (by decide) _

theorem endsNumber_memberChars (members : List (String × Json)) (rest : List Char) :
    EndsNumber (memberChars members ++ '\x7d' :: rest) := by
  cases members with
  | nil => exact endsNumber_cons (by decide) _
  | cons member members =>
    rw [memberChars, List.cons_append, List.cons_append, List.cons_append]
    exact endsNumber_cons (by decide) _

section

variable {element : Reader Json} {fuel : Nat} {first : Bool} {text more rest : List Char}

theorem readItemStart_chars {value result : Json} (taken : TakenBy element value result)
    (more : List Char) :
    readItemStart true (value.chars ++ more) = .ok (true, value.chars ++ more) ∧
      readItemStart false (',' :: (value.chars ++ more)) = .ok (true, value.chars ++ more) := by
  obtain ⟨c, cs, spelled, visible, noEnd⟩ := taken.starts
  have comma (text : List Char) : skipSpace (',' :: text) = ',' :: text := rfl
  rw [spelled, List.cons_append, readItemStart, readItemStart, comma, skipSpace_cons visible]
  constructor
  · simp
  · simp [skipSpace_cons visible, noEnd]

theorem readItems_of_start {item result : Json} {results : List Json}
    (taken : TakenBy element item result) (ends : EndsNumber more)
    (start : readItemStart first text = .ok (true, item.chars ++ more))
    (others : readItems element fuel false more = .ok (results, rest)) :
    readItems element (fuel + 1) first text = .ok (result :: results, rest) := by
  rw [readItems, start]
  simp [taken.taken more ends, others, bind, Except.bind, pure, Except.pure]

theorem readItems_itemChars {items results : List Json}
    (taken : List.Forall₂ (TakenBy element) items results) (enough : items.length < fuel)
    (rest : List Char) :
    readItems element fuel false (itemChars items ++ ']' :: rest) = .ok (results, rest) := by
  induction taken generalizing fuel with
  | nil =>
    obtain ⟨fuel, rfl⟩ := Nat.exists_eq_succ_of_ne_zero (Nat.ne_zero_of_lt enough)
    rfl
  | cons here later ih =>
    obtain ⟨fuel, rfl⟩ := Nat.exists_eq_succ_of_ne_zero (Nat.ne_zero_of_lt enough)
    rw [itemChars, List.cons_append, List.cons_append, List.append_assoc]
    exact readItems_of_start here (endsNumber_itemChars _ _) (readItemStart_chars here _).2
      (ih (Nat.lt_of_succ_lt_succ enough))

theorem readMembers_of_start {name : String} {value result : Json}
    {results : List (String × Json)} (taken : TakenBy element value result)
    (ends : EndsNumber more)
    (start : readMemberStart first text =
      .ok (true, name.toList.flatMap escapeChar ++ '"' :: ':' :: (value.chars ++ more)))
    (others : readMembers element fuel false more = .ok (results, rest)) :
    readMembers element (fuel + 1) first text = .ok ((name, result) :: results, rest) := by
  have colon (text : List Char) : readColon (':' :: text) = .ok ((), text) := rfl
  rw [readMembers, start]
  simp [readString_quoted, colon, taken.taken more ends, others, bind, Except.bind, pure,
    Except.pure]

theorem readMembers_memberChars {members results : List (String × Json)}
    (taken : List.Forall₂ (MemberTakenBy element) members results)
    (enough : members.length < fuel) (rest : List Char) :
    readMembers element fuel false (memberChars members ++ '\x7d' :: rest) =
      .ok (results, rest) := by
  induction taken generalizing fuel with
  | nil =>
    obtain ⟨fuel, rfl⟩ := Nat.exists_eq_succ_of_ne_zero (Nat.ne_zero_of_lt enough)
    rfl
  | @cons member result members results here later ih =>
    obtain ⟨fuel, rfl⟩ := Nat.exists_eq_succ_of_ne_zero (Nat.ne_zero_of_lt enough)
    obtain ⟨name, value⟩ := member
    obtain ⟨_, result⟩ := result
    obtain ⟨rfl, here⟩ := here
    refine readMembers_of_start here (endsNumber_memberChars _ _) ?_
      (ih (Nat.lt_of_succ_lt_succ enough))
    have start (text : List Char) : readMemberStart false (',' :: '"' :: text) = .ok (true, text) :=
      rfl
    rw [← start]
    simp [memberChars, quoted]

end

/-- A value without numbers, in which at most `depth` lists and objects stand inside each other. The
members of its objects are in order. -/
inductive Textual : Nat → Json → Prop
  | null {depth : Nat} : Textual depth .null
  | bool {depth : Nat} (b : Bool) : Textual depth (.bool b)
  | string {depth : Nat} (s : String) : Textual depth (.string s)
  | array {depth : Nat} {items : List Json} (inner : ∀ item ∈ items, Textual depth item) :
      Textual (depth + 1) (.array items)
  | object {depth : Nat} {members : List (String × Json)} (ascending : Keyed.Ascending members)
      (inner : ∀ member ∈ members, Textual depth member.2) : Textual (depth + 1) (.object members)

theorem readValue_eq_readLeaf {c : Char} (visible : isSpace c = false) (list : c ≠ '[')
    (object : c ≠ '\x7b') (depth : Nat) (cs : List Char) :
    readValue depth (c :: cs) = readLeaf (c :: cs) := by
  cases depth <;> simp [readValue, skipSpace_cons visible, list, object]

theorem length_le_length_itemChars (items : List Json) :
    items.length ≤ (itemChars items).length := by
  induction items with
  | nil => simp [itemChars]
  | cons item items ih =>
    simp only [itemChars, List.cons_append, List.length_cons, List.length_append]
    omega

theorem length_le_length_memberChars (members : List (String × Json)) :
    members.length ≤ (memberChars members).length := by
  induction members with
  | nil => simp [memberChars]
  | cons member members ih =>
    simp only [memberChars, List.cons_append, List.length_cons, List.length_append]
    omega

theorem takenBy_string (depth : Nat) (s : String) :
    TakenBy (readValue depth) (.string s) (.string s) where
  starts := ⟨'"', _, by rw [chars, quoted, List.cons_append], by decide, by decide⟩
  taken rest _ := by
    have spelled : chars (.string s) ++ rest =
        '"' :: (s.toList.flatMap escapeChar ++ '"' :: rest) := by
      simp [chars, quoted]
    rw [spelled, readValue_eq_readLeaf (by decide) (by decide) (by decide)]
    simp [readLeaf, readString_quoted, bind, Except.bind, pure, Except.pure]

theorem takenBy_array {depth : Nat} {items results : List Json}
    (taken : List.Forall₂ (TakenBy (readValue depth)) items results) :
    TakenBy (readValue (depth + 1)) (.array items) (.array results) where
  starts := by
    cases items with
    | nil => exact ⟨'[', _, rfl, by decide, by decide⟩
    | cons item items =>
      exact ⟨'[', _, by rw [chars, List.cons_append, List.cons_append], by decide, by decide⟩
  taken rest _ := by
    cases taken with
    | nil => rfl
    | @cons item _ items _ here later =>
      have spelled : chars (.array (item :: items)) ++ rest =
          '[' :: (item.chars ++ (itemChars items ++ ']' :: rest)) := by
        simp [chars]
      have enough : items.length < (item.chars ++ (itemChars items ++ ']' :: rest)).length := by
        have := length_le_length_itemChars items
        simp only [List.length_append, List.length_cons]
        omega
      have read := readItems_of_start here (endsNumber_itemChars _ _) (readItemStart_chars here _).1
        (readItems_itemChars later enough rest)
      rw [spelled, readValue, skipSpace_cons (by decide)]
      simp only [read, bind, Except.bind, pure, Except.pure]

theorem takenBy_object {depth : Nat} {members results : List (String × Json)}
    (taken : List.Forall₂ (MemberTakenBy (readValue depth)) members results) :
    TakenBy (readValue (depth + 1)) (.object members) (ofMembers results) where
  starts := by
    cases members with
    | nil => exact ⟨'\x7b', _, rfl, by decide, by decide⟩
    | cons member members => exact ⟨'\x7b', _, rfl, by decide, by decide⟩
  taken rest _ := by
    cases taken with
    | nil => rfl
    | @cons member result members _ here later =>
      obtain ⟨name, value⟩ := member
      obtain ⟨_, result⟩ := result
      obtain ⟨rfl, here⟩ := here
      -- What stands behind the opening quote of the first name.
      obtain ⟨behind, whole⟩ : ∃ behind, behind = name.toList.flatMap escapeChar ++ '"' :: ':' ::
          (value.chars ++ (memberChars members ++ '\x7d' :: rest)) := ⟨_, rfl⟩
      have spelled :
          chars (.object ((name, value) :: members)) ++ rest = '\x7b' :: '"' :: behind := by
        simp [whole, chars, quoted]
      have enough : members.length < ('"' :: behind).length := by
        have := length_le_length_memberChars members
        simp only [whole, List.length_append, List.length_cons]
        omega
      have start : readMemberStart true ('"' :: behind) = .ok (true, behind) := rfl
      have read := readMembers_of_start here (endsNumber_memberChars _ _) (whole ▸ start)
        (readMembers_memberChars later enough rest)
      rw [← whole] at read
      rw [spelled, readValue, skipSpace_cons (by decide)]
      simp only [read, bind, Except.bind, pure, Except.pure]

theorem Textual.takenBy {depth : Nat} {value : Json} (textual : Textual depth value) :
    TakenBy (readValue depth) value value := by
  induction textual with
  | null =>
    refine ⟨⟨'n', _, rfl, by decide, by decide⟩, fun rest _ => ?_⟩
    exact readValue_eq_readLeaf (by decide) (by decide) (by decide) _ _
  | bool b =>
    cases b with
    | false =>
      refine ⟨⟨'f', _, rfl, by decide, by decide⟩, fun rest _ => ?_⟩
      exact readValue_eq_readLeaf (by decide) (by decide) (by decide) _ _
    | true =>
      refine ⟨⟨'t', _, rfl, by decide, by decide⟩, fun rest _ => ?_⟩
      exact readValue_eq_readLeaf (by decide) (by decide) (by decide) _ _
  | string s => exact takenBy_string _ s
  | array _ ih => exact takenBy_array (List.forall₂_same.mpr ih)
  | object ascending _ ih =>
    have same := takenBy_object (List.forall₂_same.mpr fun member inside => ⟨rfl, ih member inside⟩)
    rwa [ofMembers, Keyed.sorted_eq_self ascending] at same

/-- A text is read as the value that it was written for, with a line end behind it. -/
theorem read_compact {value : Json} (textual : Textual depthLimit value) :
    read (value.compact ++ "\n") = .ok value := by
  have taken := textual.takenBy.taken ['\n'] (endsNumber_cons (by decide) _)
  have spelled : (value.compact ++ "\n").toList = value.chars ++ ['\n'] := by
    rw [compact, String.toList_append, String.toList_ofList]
    rfl
  rw [read, readWhole, spelled, taken]
  rfl

end Tabular.Json
