import Mathlib.Data.List.Forall2
import Mathlib.Data.List.TakeWhile
import Tabular.Text.Split

/-!
# Joined and trimmed texts

Texts that were joined with a character come apart again at this character, if none of them holds
it; texts that were each ended with it come apart into their own pieces. A text without blanks at
its ends is not trimmed, and blanks around a text make no difference to its trimmed pieces.
-/

namespace Tabular.Text

theorem piecesBy_eq_splitOnP {α : Type} (cut : α → Bool) (xs : List α) :
    piecesBy cut xs = xs.splitOnP cut := by
  induction xs with
  | nil => rfl
  | cons x xs ih =>
    rw [piecesBy, List.splitOnP_cons_eq_if_modifyHead, ih]
    split
    · rfl
    · obtain ⟨piece, more, pieces⟩ := List.exists_cons_of_ne_nil (List.splitOnP_ne_nil cut xs)
      rw [pieces]
      rfl

theorem piecesBy_eq_singleton {separator : Char} {cs : List Char} (clear : separator ∉ cs) :
    piecesBy (· == separator) cs = [cs] := by
  rw [piecesBy_eq_splitOnP]
  refine List.splitOnP_eq_singleton fun c member => ?_
  refine beq_eq_false_iff_ne.mpr ?_
  rintro rfl
  exact clear member

theorem piecesBy_append_cons {separator : Char} {piece : List Char} (clear : separator ∉ piece)
    (rest : List Char) :
    piecesBy (· == separator) (piece ++ separator :: rest) =
      piece :: piecesBy (· == separator) rest := by
  have whole := piecesBy_eq_singleton clear
  rw [piecesBy_eq_splitOnP] at whole
  rw [piecesBy_eq_splitOnP, List.splitOnP_append_cons _ _ (by simp), whole,
    ← piecesBy_eq_splitOnP]
  rfl

theorem piecesBy_intercalate {separator : Char} {pieces : List (List Char)} (filled : pieces ≠ [])
    (clear : ∀ piece ∈ pieces, separator ∉ piece) :
    piecesBy (· == separator) ([separator].intercalate pieces) = pieces := by
  rw [piecesBy_eq_splitOnP]
  exact List.splitOn_intercalate separator clear filled

theorem splitAtChar_intercalate {separator : Char} {texts : List String} (filled : texts ≠ [])
    (clear : ∀ text ∈ texts, separator ∉ text.toList) :
    splitAtChar separator ((String.singleton separator).intercalate texts) = texts := by
  have pieces := @piecesBy_intercalate separator (texts.map String.toList) (by simpa using filled)
    (by simpa using clear)
  rw [splitAtChar, String.toList_intercalate, String.toList_singleton, pieces, List.map_map]
  exact (List.map_congr_left fun text _ => String.ofList_toList).trans (List.map_id _)

theorem splitAtChar_join_ended (feed : Char) (texts : List String) :
    splitAtChar feed (String.join (texts.map (· ++ String.singleton feed))) =
      texts.flatMap (splitAtChar feed) ++ [""] := by
  induction texts with
  | nil => rfl
  | cons text texts ih =>
    have parts : (String.join ((text :: texts).map (· ++ String.singleton feed))).toList =
        text.toList ++ feed :: (String.join (texts.map (· ++ String.singleton feed))).toList := by
      simp [String.join_cons]
    rw [List.flatMap_cons, List.append_assoc, ← ih]
    simp only [splitAtChar, parts, piecesBy_eq_splitOnP]
    rw [List.splitOnP_append_cons _ _ (by simp), List.map_append]

theorem splitAtChar_eq_singleton {feed : Char} {text : String} (whole : feed ∉ text.toList) :
    splitAtChar feed text = [text] := by
  have alone := @splitAtChar_intercalate feed [text] (List.cons_ne_nil _ _) (by simpa using whole)
  rwa [String.intercalate_singleton] at alone

theorem exists_shorter_mem_splitAtChar {feed : Char} {text : String} (broken : feed ∈ text.toList) :
    ∃ piece ∈ splitAtChar feed text, piece.length < text.length := by
  obtain ⟨front, back, parts, whole⟩ := List.eq_append_cons_of_mem broken
  have first : splitAtChar feed text =
      String.ofList front :: splitAtChar feed (String.ofList back) := by
    have piece := @splitAtChar_eq_singleton feed (String.ofList front) (by simpa using whole)
    simp only [splitAtChar, piecesBy_eq_splitOnP, String.toList_ofList] at piece ⊢
    rw [parts, List.splitOnP_append_cons _ _ (by simp), List.map_append, piece,
      List.singleton_append]
  refine ⟨String.ofList front, first ▸ List.mem_cons_self, ?_⟩
  have size : text.length = front.length + (back.length + 1) := by
    rw [← String.length_toList, parts, List.length_append, List.length_cons]
  rw [String.length_ofList, size]
  omega

theorem mem_intercalate {α : Type} {separator : List α} {pieces : List (List α)} {x : α}
    (member : x ∈ separator.intercalate pieces) : x ∈ separator ∨ ∃ piece ∈ pieces, x ∈ piece := by
  induction pieces with
  | nil => simp at member
  | cons piece pieces ih =>
    cases pieces with
    | nil =>
      rw [List.intercalate_singleton] at member
      exact .inr ⟨piece, List.mem_cons_self, member⟩
    | cons next pieces =>
      rw [List.intercalate_cons_cons, List.append_assoc, List.mem_append, List.mem_append] at member
      rcases member with here | between | later
      · exact .inr ⟨piece, List.mem_cons_self, here⟩
      · exact .inl between
      · exact (ih later).imp_right fun ⟨other, known, inside⟩ =>
          ⟨other, List.mem_cons_of_mem _ known, inside⟩

theorem mem_intercalate_of_mem {α : Type} (separator : List α) {pieces : List (List α)}
    {piece : List α} (member : piece ∈ pieces) {x : α} (inside : x ∈ piece) :
    x ∈ separator.intercalate pieces := by
  induction pieces with
  | nil => cases member
  | cons first pieces ih =>
    cases pieces with
    | nil =>
      obtain rfl := List.mem_singleton.mp member
      rwa [List.intercalate_singleton]
    | cons next pieces =>
      rw [List.intercalate_cons_cons, List.append_assoc]
      rcases List.mem_cons.mp member with rfl | later
      · exact List.mem_append_left _ inside
      · exact List.mem_append_right _ (List.mem_append_right _ (ih later))

theorem prefix_intercalate_cons {α : Type} (separator piece : List α) (pieces : List (List α)) :
    piece <+: separator.intercalate (piece :: pieces) := by
  cases pieces with
  | nil => simp
  | cons next pieces =>
    rw [List.intercalate_cons_cons, List.append_assoc]
    exact List.prefix_append _ _

theorem isBlank_of_isDigit {c : Char} (digit : c.isDigit = true) : isBlank c = false := by
  have bounds : 48 ≤ c.toNat ∧ c.toNat ≤ 57 := Char.isDigit_iff_toNat.mp digit
  simp only [isBlank, Bool.or_eq_false_iff, Bool.and_eq_false_iff, decide_eq_false_iff_not,
    beq_eq_false_iff_ne]
  omega

theorem trimLeftChars_eq_self {cs : List Char} (first : ∀ c ∈ cs.head?, isBlank c = false) :
    trimLeftChars cs = cs := by
  cases cs with
  | nil => rfl
  | cons c cs => rw [trimLeftChars, List.dropWhile_cons_of_neg (by simp [first c rfl])]

theorem trimRightChars_eq_self {cs : List Char} (last : ∀ c ∈ cs.getLast?, isBlank c = false) :
    trimRightChars cs = cs := by
  have back : trimLeftChars cs.reverse = cs.reverse :=
    trimLeftChars_eq_self (by rwa [List.head?_reverse])
  exact (congrArg List.reverse back).trans (List.reverse_reverse cs)

theorem trimChars_eq_self {cs : List Char} (first : ∀ c ∈ cs.head?, isBlank c = false)
    (last : ∀ c ∈ cs.getLast?, isBlank c = false) : trimChars cs = cs := by
  rw [trimChars, trimLeftChars_eq_self first, trimRightChars_eq_self last]

theorem trimChars_append_left {blanks : List Char} (blank : ∀ c ∈ blanks, isBlank c = true)
    (cs : List Char) : trimChars (blanks ++ cs) = trimChars cs := by
  rw [trimChars, trimLeftChars, List.dropWhile_append_of_pos blank]
  rfl

theorem trimChars_append_right {blanks : List Char} (blank : ∀ c ∈ blanks, isBlank c = true)
    (cs : List Char) : trimChars (cs ++ blanks) = trimChars cs := by
  have right (xs : List Char) : trimRightChars (xs ++ blanks) = trimRightChars xs := by
    rw [trimRightChars, List.reverse_append, List.dropWhile_append_of_pos (by simpa using blank)]
    rfl
  rw [trimChars, trimChars, trimLeftChars, trimLeftChars, List.dropWhile_append]
  split
  · rename_i nothing
    rw [List.isEmpty_iff.mp nothing, List.dropWhile_eq_nil_iff.mpr blank]
  · exact right _

theorem trim_append {blanks : String} (blank : ∀ c ∈ blanks.toList, isBlank c = true)
    (text : String) : trim (text ++ blanks) = trim text := by
  rw [trim, String.toList_append, trimChars_append_right blank, trim]

theorem exists_eq_append_trimChars (cs : List Char) :
    ∃ lead tail, (∀ c ∈ lead, isBlank c = true) ∧ (∀ c ∈ tail, isBlank c = true) ∧
      cs = lead ++ (trimChars cs ++ tail) := by
  refine ⟨cs.takeWhile isBlank, ((trimLeftChars cs).reverse.takeWhile isBlank).reverse,
    fun c member => List.mem_takeWhile_imp member,
    fun c member => List.mem_takeWhile_imp (List.mem_reverse.mp member), ?_⟩
  rw [trimChars, trimRightChars, ← List.reverse_append, List.takeWhile_append_dropWhile,
    List.reverse_reverse, trimLeftChars, List.takeWhile_append_dropWhile]

theorem trimChars_trimChars (cs : List Char) : trimChars (trimChars cs) = trimChars cs := by
  obtain ⟨lead, tail, before, behind, parts⟩ := exists_eq_append_trimChars cs
  have whole := congrArg trimChars parts
  rwa [trimChars_append_left before, trimChars_append_right behind, eq_comm] at whole

theorem mem_of_mem_trimChars {cs : List Char} {c : Char} (member : c ∈ trimChars cs) : c ∈ cs := by
  obtain ⟨lead, tail, -, -, parts⟩ := exists_eq_append_trimChars cs
  rw [parts]
  exact List.mem_append_right _ (List.mem_append_left _ member)

theorem isBlankText_eq_false {text : String} (named : text ≠ "") (trimmed : trim text = text) :
    isBlankText text = false := by
  refine Bool.eq_false_iff.mpr fun blank => ?_
  have all : ∀ c ∈ text.toList, isBlank c := List.all_eq_true.mp blank
  have nothing : trimChars text.toList = [] := by
    rw [trimChars, trimLeftChars, List.dropWhile_eq_nil_iff.mpr all]
    rfl
  rw [trim, nothing] at trimmed
  exact named trimmed.symm

theorem blank_apart {separator : Char} (visible : isBlank separator = false) (c : Char)
    (blank : isBlank c = true) : (c == separator) = false := by
  refine beq_eq_false_iff_ne.mpr ?_
  rintro rfl
  cases visible.symm.trans blank

theorem piecesBy_cons_of_false {α : Type} {cut : α → Bool} {x : α} (inside : cut x = false)
    (xs : List α) : piecesBy cut (x :: xs) = (piecesBy cut xs).modifyHead (x :: ·) := by
  obtain ⟨piece, more, pieces⟩ := List.exists_cons_of_ne_nil (piecesBy_ne_nil cut xs)
  rw [piecesBy, inside, pieces]
  rfl

variable {cut : Char → Bool}

theorem map_trimChars_piecesBy_append_left (apart : ∀ c, isBlank c = true → cut c = false)
    {blanks : List Char} (blank : ∀ c ∈ blanks, isBlank c = true) (cs : List Char) :
    (piecesBy cut (blanks ++ cs)).map trimChars = (piecesBy cut cs).map trimChars := by
  induction blanks with
  | nil => rfl
  | cons b blanks ih =>
    obtain ⟨first, others⟩ := List.forall_mem_cons.mp blank
    rw [List.cons_append, piecesBy_cons_of_false (apart b first), ← ih others]
    obtain ⟨piece, more, pieces⟩ := List.exists_cons_of_ne_nil (piecesBy_ne_nil cut (blanks ++ cs))
    have shorter := trimChars_append_left (List.forall_mem_singleton.mpr first) piece
    rw [List.singleton_append] at shorter
    rw [pieces, List.modifyHead_cons, List.map_cons, List.map_cons, shorter]

theorem forall₂_piecesBy_append_right (apart : ∀ c, isBlank c = true → cut c = false)
    {blanks : List Char} (blank : ∀ c ∈ blanks, isBlank c = true) (cs : List Char) :
    List.Forall₂ (fun piece longer => ∃ tail, (∀ c ∈ tail, isBlank c = true) ∧
      longer = piece ++ tail) (piecesBy cut cs) (piecesBy cut (cs ++ blanks)) := by
  induction cs with
  | nil =>
    have whole : piecesBy cut blanks = [blanks] := by
      rw [piecesBy_eq_splitOnP]
      exact List.splitOnP_eq_singleton fun c member => by simp [apart c (blank c member)]
    rw [List.nil_append, whole]
    exact .cons ⟨blanks, blank, rfl⟩ .nil
  | cons c cs ih =>
    cases here : cut c with
    | true =>
      rw [List.cons_append, piecesBy, piecesBy, here]
      exact .cons ⟨[], by simp, rfl⟩ ih
    | false =>
      rw [List.cons_append, piecesBy_cons_of_false here, piecesBy_cons_of_false here]
      generalize piecesBy cut cs = pieces at ih ⊢
      generalize piecesBy cut (cs ++ blanks) = longer at ih ⊢
      cases ih with
      | nil => exact .nil
      | cons first others =>
        obtain ⟨tail, behind, rfl⟩ := first
        exact .cons ⟨tail, behind, rfl⟩ others

/-- Where no blank cuts a text, blanks around it make no difference to its trimmed pieces. -/
theorem map_trimChars_piecesBy_trimChars (apart : ∀ c, isBlank c = true → cut c = false)
    (cs : List Char) :
    (piecesBy cut (trimChars cs)).map trimChars = (piecesBy cut cs).map trimChars := by
  obtain ⟨lead, tail, before, behind, parts⟩ := exists_eq_append_trimChars cs
  have padded := forall₂_piecesBy_append_right apart behind (trimChars cs)
  have same : (piecesBy cut (trimChars cs)).map trimChars =
      (piecesBy cut (trimChars cs ++ tail)).map trimChars := by
    rw [← List.forall₂_eq_eq_eq, List.forall₂_map_left_iff, List.forall₂_map_right_iff]
    refine padded.imp ?_
    rintro piece longer ⟨blanks, blank, rfl⟩
    exact (trimChars_append_right blank piece).symm
  rw [same, ← map_trimChars_piecesBy_append_left apart before, ← parts]

end Tabular.Text
