import Tabular.Proofs.Text.Pieces

/-!
# Texts with a separator

A text that was joined with a separator comes apart again at this separator, if none of the joined
texts holds its first character. What a text begins with is stripped off it.
-/

namespace Tabular.Text

theorem dropLead?_eq_some_iff {lead cs rest : List Char} :
    dropLead? lead cs = some rest ↔ cs = lead ++ rest := by
  induction lead generalizing cs with
  | nil => rw [dropLead?, Option.some.injEq, List.nil_append]
  | cons l lead ih =>
    cases cs with
    | nil => simp [dropLead?]
    | cons c cs =>
      rw [dropLead?, List.cons_append, List.cons.injEq]
      split
      · rename_i same
        rw [ih, eq_comm (a := c), and_iff_right same]
      · rename_i differs
        simp [eq_comm (a := c), differs]

theorem stripLead?_eq_some_iff {lead s rest : String} :
    stripLead? lead s = some rest ↔ s = lead ++ rest := by
  rw [stripLead?, Option.map_eq_some_iff, ← String.toList_inj, String.toList_append]
  constructor
  · rintro ⟨cs, found, rfl⟩
    rw [String.toList_ofList]
    exact dropLead?_eq_some_iff.mp found
  · intro whole
    exact ⟨rest.toList, dropLead?_eq_some_iff.mpr whole, String.ofList_toList⟩

theorem eq_append_of_stripTail? {tail s rest : String} (found : stripTail? tail s = some rest) :
    s = rest ++ tail := by
  rw [stripTail?, Option.map_eq_some_iff] at found
  obtain ⟨cs, found, rfl⟩ := found
  have reversed := congrArg List.reverse (dropLead?_eq_some_iff.mp found)
  rw [List.reverse_reverse, List.reverse_append, List.reverse_reverse] at reversed
  rw [← String.toList_inj, String.toList_append, String.toList_ofList, reversed]

variable {first : Char} {more piece : List Char}

theorem piecesAtAux_ne_nil (separator : List Char) (skip : Nat) (cs : List Char) :
    piecesAtAux separator skip cs ≠ [] := by
  induction cs generalizing skip with
  | nil => simp [piecesAtAux]
  | cons c cs ih =>
    cases skip with
    | succ skip => exact ih skip
    | zero =>
      rw [piecesAtAux]
      split
      · exact List.cons_ne_nil _ _
      · split <;> exact List.cons_ne_nil _ _

theorem piecesAtAux_skip (separator skipped rest : List Char) :
    piecesAtAux separator skipped.length (skipped ++ rest) = piecesAtAux separator 0 rest := by
  induction skipped with
  | nil => rfl
  | cons _ _ ih => exact ih

theorem piecesAt_append (rest : List Char) :
    piecesAt (first :: more) (first :: more ++ rest) = [] :: piecesAt (first :: more) rest := by
  have starts : (first :: more).isPrefixOf (first :: (more ++ rest)) = true :=
    List.isPrefixOf_iff_prefix.mpr (List.prefix_append (first :: more) rest)
  rw [piecesAt, List.cons_append, piecesAtAux, if_pos starts, List.length_cons,
    Nat.add_sub_cancel, piecesAtAux_skip]
  rfl

theorem piecesAt_cons {c : Char} (other : first ≠ c) (cs : List Char) :
    piecesAt (first :: more) (c :: cs) = (piecesAt (first :: more) cs).modifyHead (c :: ·) := by
  have inside : (first :: more).isPrefixOf (c :: cs) = false := by
    simp [List.isPrefixOf, other]
  rw [piecesAt, piecesAtAux, inside, if_neg Bool.false_ne_true, piecesAt]
  cases rest : piecesAtAux (first :: more) 0 cs with
  | nil => exact absurd rest (piecesAtAux_ne_nil _ _ _)
  | cons => rfl

theorem piecesAt_eq_singleton (clear : first ∉ piece) :
    piecesAt (first :: more) piece = [piece] := by
  induction piece with
  | nil => rfl
  | cons c piece ih =>
    rw [List.mem_cons, not_or] at clear
    rw [piecesAt_cons clear.1, ih clear.2]
    rfl

theorem piecesAt_append_cons (clear : first ∉ piece) (rest : List Char) :
    piecesAt (first :: more) (piece ++ (first :: more ++ rest)) =
      piece :: piecesAt (first :: more) rest := by
  induction piece with
  | nil => exact piecesAt_append rest
  | cons c piece ih =>
    rw [List.mem_cons, not_or] at clear
    rw [List.cons_append, piecesAt_cons clear.1, ih clear.2]
    rfl

theorem piecesAt_intercalate {pieces : List (List Char)} (filled : pieces ≠ [])
    (clear : ∀ piece ∈ pieces, first ∉ piece) :
    piecesAt (first :: more) ((first :: more).intercalate pieces) = pieces := by
  induction pieces with
  | nil => exact absurd rfl filled
  | cons piece pieces ih =>
    obtain ⟨here, later⟩ := List.forall_mem_cons.mp clear
    cases pieces with
    | nil => rw [List.intercalate_singleton, piecesAt_eq_singleton here]
    | cons next pieces =>
      rw [List.intercalate_cons_cons, List.append_assoc, piecesAt_append_cons here,
        ih (List.cons_ne_nil _ _) later]

/-- Joined texts come apart at their separator. -/
theorem splitAt_intercalate {separator : String} {texts : List String} (filled : texts ≠ [])
    (begins : separator.toList = first :: more)
    (clear : ∀ text ∈ texts, first ∉ text.toList) :
    splitAt separator (separator.intercalate texts) = texts := by
  have visible : separator.isEmpty = false := by
    refine Bool.eq_false_iff.mpr fun empty => ?_
    rw [String.isEmpty_iff.mp empty] at begins
    cases begins
  have pieces := @piecesAt_intercalate first more (texts.map String.toList) (by simpa using filled)
    (by simpa using clear)
  rw [splitAt, visible, if_neg Bool.false_ne_true, String.toList_intercalate, begins, pieces,
    List.map_map]
  exact (List.map_congr_left fun text _ => String.ofList_toList).trans (List.map_id _)

end Tabular.Text
