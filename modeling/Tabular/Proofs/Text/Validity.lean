import Tabular.Text.Input

/-!
# Valid inputs

An input is valid when none of its marks is a stray byte. Its lines are valid then, so reading them
is never cut short.
-/

namespace Tabular.Text

theorem eq_map_char_of_chars? {marks : List Mark} {cs : List Char} (h : chars? marks = some cs) :
    marks = cs.map Mark.char := by
  induction marks generalizing cs with
  | nil =>
    cases h
    rfl
  | cons mark marks ih =>
    cases mark with
    | char c =>
      obtain ⟨rest, found, rfl⟩ := Option.map_eq_some_iff.mp h
      rw [ih found, List.map_cons]
    | stray byte => cases h

theorem eq_ofText_of_text? {input : Input} {s : String} (h : text? input = some s) :
    input = Input.ofText s := by
  obtain ⟨cs, found, rfl⟩ := Option.map_eq_some_iff.mp h
  rw [Input.ofText, String.toList_ofList]
  exact eq_map_char_of_chars? found

theorem text?_isSome_of_forall {marks : List Mark} (h : ∀ mark ∈ marks, ∃ c, mark = .char c) :
    (text? marks).isSome := by
  induction marks with
  | nil => rfl
  | cons mark marks ih =>
    obtain ⟨c, rfl⟩ := h mark List.mem_cons_self
    have rest := ih fun mark member => h mark (List.mem_cons_of_mem _ member)
    simpa [text?, chars?] using rest

theorem mem_of_mem_piecesBy {α : Type} {cut : α → Bool} {xs piece : List α} {x : α}
    (member : piece ∈ piecesBy cut xs) (inside : x ∈ piece) : x ∈ xs := by
  induction xs generalizing piece with
  | nil =>
    rw [piecesBy, List.mem_singleton] at member
    rwa [member] at inside
  | cons y ys ih =>
    rw [piecesBy] at member
    split at member
    · rcases List.mem_cons.mp member with rfl | member
      · simp at inside
      · exact List.mem_cons_of_mem _ (ih member inside)
    · split at member
      · rename_i none
        exact absurd none (piecesBy_ne_nil cut ys)
      · rename_i first more pieces
        rcases List.mem_cons.mp member with rfl | member
        · rcases List.mem_cons.mp inside with rfl | inside
          · exact List.mem_cons_self
          · exact List.mem_cons_of_mem _ (ih (pieces ▸ List.mem_cons_self) inside)
        · exact List.mem_cons_of_mem _ (ih (pieces ▸ List.mem_cons_of_mem _ member) inside)

theorem mem_of_mem_lines {input line : Input} {mark : Mark} (member : line ∈ input.lines)
    (inside : mark ∈ line) : mark ∈ input := by
  have ended : ∀ line ∈ ((piecesBy (· == .char '\n') input).dropLast.map fun line =>
      if line.getLast? = some (.char '\r') then line.dropLast else line),
      mark ∈ line → mark ∈ input := by
    intro line member inside
    obtain ⟨piece, known, rfl⟩ := List.mem_map.mp member
    have known := List.dropLast_subset _ known
    split at inside
    · exact mem_of_mem_piecesBy known (List.dropLast_subset _ inside)
    · exact mem_of_mem_piecesBy known inside
  simp only [Input.lines] at member
  split at member
  · exact ended line member inside
  · exact ended line member inside
  · rename_i rest _ last
    rcases List.mem_append.mp member with member | member
    · exact ended line member inside
    · rw [List.mem_singleton] at member
      subst member
      exact mem_of_mem_piecesBy (List.mem_of_getLast? last) inside

theorem validLines_snd_of_forall {lines : List (List Mark)}
    (h : ∀ line ∈ lines, (text? line).isSome) : (validLines lines).2 = false := by
  induction lines with
  | nil => rfl
  | cons line lines ih =>
    obtain ⟨s, found⟩ := Option.isSome_iff_exists.mp (h line List.mem_cons_self)
    simp only [validLines, found]
    exact ih fun line member => h line (List.mem_cons_of_mem _ member)

/-- No line of a valid input breaks off the reading. -/
theorem validLines_lines_ofText (s : String) :
    (validLines (Input.ofText s).lines).2 = false := by
  refine validLines_snd_of_forall fun line member => text?_isSome_of_forall fun mark inside => ?_
  obtain ⟨c, -, rfl⟩ := List.mem_map.mp (mem_of_mem_lines member inside)
  exact ⟨c, rfl⟩

end Tabular.Text
