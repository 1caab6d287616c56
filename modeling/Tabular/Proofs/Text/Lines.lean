import Tabular.Proofs.Text.Pieces
import Tabular.Proofs.Text.Validity

/-!
# The lines of an input

An input that leaves no line open can be read apart from what stands behind it: the lines of both
together are the lines of the one and then those of the other.
-/

namespace Tabular.Text

namespace Input

def withoutReturn (line : List Mark) : List Mark :=
  if line.getLast? = some (.char '\r') then line.dropLast else line

/-- The last line is ended, if there is one. -/
def Complete (input : Input) : Prop :=
  input = [] ∨ input.getLast? = some (.char '\n')

instance (input : Input) : Decidable input.Complete :=
  inferInstanceAs (Decidable (_ ∨ _))

theorem lines_of_pieces {input : Input} {ended : List (List Mark)} {rest : List Mark}
    (pieces : piecesBy (· == .char '\n') input = ended ++ [rest]) :
    input.lines = ended.map withoutReturn ++ if rest = [] then [] else [rest] := by
  simp only [lines, pieces, List.dropLast_concat, List.getLast?_concat]
  cases rest with
  | nil => exact (List.append_nil _).symm
  | cons mark marks => rfl

theorem lines_append_feed (front back : Input) :
    (front ++ .char '\n' :: back : Input).lines =
      (piecesBy (· == .char '\n') front).map withoutReturn ++ back.lines := by
  obtain ⟨ended, rest, pieces⟩ :=
    (List.eq_nil_or_concat _).resolve_left (piecesBy_ne_nil (· == Mark.char '\n') back)
  rw [List.concat_eq_append] at pieces
  have together : piecesBy (· == Mark.char '\n') (front ++ .char '\n' :: back) =
      (piecesBy (· == Mark.char '\n') front ++ ended) ++ [rest] := by
    rw [List.append_assoc, ← pieces]
    simp only [piecesBy_eq_splitOnP]
    exact List.splitOnP_append_cons front back rfl
  rw [lines_of_pieces together, lines_of_pieces pieces, List.map_append, List.append_assoc]

theorem lines_append {first : Input} (complete : first.Complete) (second : Input) :
    (first ++ second : Input).lines = first.lines ++ second.lines := by
  rcases complete with rfl | ended
  · rfl
  · obtain ⟨front, rfl⟩ := List.getLast?_eq_some_iff.mp ended
    have alone := lines_append_feed front []
    have nothing : lines [] = [] := rfl
    rw [nothing, List.append_nil] at alone
    rw [List.append_assoc, List.singleton_append, lines_append_feed, alone]

theorem pieces_of_unfed {line : Input} (noFeed : .char '\n' ∉ line) :
    piecesBy (· == Mark.char '\n') line = [line] := by
  rw [piecesBy_eq_splitOnP]
  apply List.splitOnP_eq_singleton
  intro mark member
  refine beq_eq_false_iff_ne.mpr ?_
  rintro rfl
  exact noFeed member

theorem lines_unfed_append {line : Input} (noFeed : .char '\n' ∉ line) (rest : Input) :
    (line ++ .char '\n' :: rest : Input).lines = withoutReturn line :: rest.lines := by
  rw [lines_append_feed, pieces_of_unfed noFeed, List.map_singleton, List.singleton_append]

theorem lines_ofText_cons {line : String} (noFeed : '\n' ∉ line.toList)
    (noReturn : line.toList.getLast? ≠ some '\r') (rest : Input) :
    (ofText line ++ .char '\n' :: rest : Input).lines = ofText line :: rest.lines := by
  have unfed : .char '\n' ∉ ofText line := by
    intro member
    obtain ⟨c, known, same⟩ := List.mem_map.mp member
    cases same
    exact noFeed known
  have kept : withoutReturn (ofText line) = ofText line := by
    refine if_neg ?_
    rw [ofText, List.getLast?_map]
    intro last
    obtain ⟨c, known, same⟩ := Option.map_eq_some_iff.mp last
    cases same
    exact noReturn known
  rw [lines_unfed_append unfed, kept]

end Input

theorem validLines_append_of_valid {first : List (List Mark)}
    (valid : (validLines first).2 = false) (second : List (List Mark)) :
    validLines (first ++ second) =
      ((validLines first).1 ++ (validLines second).1, (validLines second).2) := by
  induction first with
  | nil => rfl
  | cons line first ih =>
    rw [List.cons_append, validLines, validLines]
    cases read : text? line with
    | none => simp [validLines, read] at valid
    | some s =>
      simp only [validLines, read] at valid
      simp only [ih valid, List.cons_append]

/-- Nothing is read behind a line that is not valid text. -/
theorem validLines_append_of_broken {first : List (List Mark)}
    (broken : (validLines first).2 = true) (second : List (List Mark)) :
    validLines (first ++ second) = validLines first := by
  induction first with
  | nil => cases broken
  | cons line first ih =>
    rw [List.cons_append, validLines, validLines]
    cases read : text? line with
    | none => rfl
    | some s =>
      simp only [validLines, read] at broken
      simp only [ih broken]

theorem validLines_ofText_cons (s : String) (lines : List (List Mark)) :
    validLines (Input.ofText s :: lines) = (s :: (validLines lines).1, (validLines lines).2) := by
  rw [validLines, text?_ofText]

theorem text?_isSome_iff {marks : List Mark} :
    (text? marks).isSome ↔ ∀ mark ∈ marks, ∃ c, mark = .char c := by
  constructor
  · intro valid mark member
    obtain ⟨s, read⟩ := Option.isSome_iff_exists.mp valid
    rw [eq_ofText_of_text? read] at member
    obtain ⟨c, -, rfl⟩ := List.mem_map.mp member
    exact ⟨c, rfl⟩
  · exact text?_isSome_of_forall

namespace Input

/-- The first line behind the cut is the first line of the input that is not valid text. -/
structure BreaksBehind (before after : Input) : Prop where
  complete : before.Complete
  valid : (text? before).isSome
  broken : ∃ line more, after.lines = line :: more ∧ text? line = none

theorem valid_of_withoutReturn {line : Input} (valid : (text? (withoutReturn line)).isSome) :
    ∀ mark ∈ line, ∃ c, mark = .char c := by
  rw [withoutReturn] at valid
  split at valid
  · rename_i last
    obtain ⟨front, rfl⟩ := List.getLast?_eq_some_iff.mp last
    rw [List.dropLast_concat, text?_isSome_iff] at valid
    intro mark member
    rcases List.mem_append.mp member with inside | single
    · exact valid mark inside
    · exact ⟨'\r', List.mem_singleton.mp single⟩
  · exact text?_isSome_iff.mp valid

theorem BreaksBehind.cons {line before after : Input} (breaks : BreaksBehind before after)
    (valid : ∀ mark ∈ line, ∃ c, mark = .char c) :
    BreaksBehind (line ++ .char '\n' :: before) after where
  complete := by
    refine .inr ?_
    rcases breaks.complete with rfl | ended
    · exact List.getLast?_concat
    · rw [List.getLast?_append, List.getLast?_cons, ended]
      rfl
  valid := by
    have rest := text?_isSome_iff.mp breaks.valid
    refine text?_isSome_iff.mpr ?_
    intro mark member
    rcases List.mem_append.mp member with inside | behind
    · exact valid mark inside
    · rcases List.mem_cons.mp behind with rfl | later
      · exact ⟨'\n', rfl⟩
      · exact rest mark later
  broken := breaks.broken

theorem exists_breaksBehind {input : Input} (broken : (validLines input.lines).2 = true) :
    ∃ before after, input = before ++ after ∧ BreaksBehind before after := by
  induction size : input.length using Nat.strong_induction_on generalizing input with
  | h n ih =>
    by_cases feed : .char '\n' ∈ input
    · obtain ⟨line, rest, rfl, unfed⟩ := List.eq_append_cons_of_mem feed
      have first := lines_unfed_append unfed rest
      cases read : text? (withoutReturn line) with
      | none =>
        exact ⟨[], line ++ .char '\n' :: rest, rfl, .inl rfl, rfl, _, _, first, read⟩
      | some s =>
        -- The first line is ended and valid, so the broken one is in the rest.
        have later : (validLines (lines rest)).2 = true := by
          rw [first, validLines, read] at broken
          exact broken
        have shorter : rest.length < n := by
          rw [← size, List.length_append, List.length_cons]
          omega
        obtain ⟨before, after, rfl, breaks⟩ := ih rest.length shorter later rfl
        have valid := valid_of_withoutReturn (Option.isSome_iff_exists.mpr ⟨s, read⟩)
        refine ⟨line ++ .char '\n' :: before, after, ?_, breaks.cons valid⟩
        rw [List.append_assoc, List.cons_append]
    · -- The input is one open line, or it is empty.
      have single := @lines_of_pieces input [] input (pieces_of_unfed feed)
      rw [List.map_nil, List.nil_append] at single
      split at single
      · rw [single] at broken
        cases broken
      · cases read : text? input with
        | none => exact ⟨[], input, rfl, .inl rfl, rfl, input, [], single, read⟩
        | some s => simp [single, validLines, read] at broken

end Input

/-- The lines that are read are those in front of the first broken one. -/
theorem validLines_of_breaksBehind {before after : Input} (breaks : before.BreaksBehind after) :
    validLines before.lines = ((validLines before.lines).1, false) ∧
      validLines (before ++ after : Input).lines = ((validLines before.lines).1, true) := by
  have marks := text?_isSome_iff.mp breaks.valid
  have valid : (validLines before.lines).2 = false := by
    apply validLines_snd_of_forall
    intro line member
    apply text?_isSome_of_forall
    intro mark inside
    exact marks mark (mem_of_mem_lines member inside)
  obtain ⟨line, more, lines, read⟩ := breaks.broken
  constructor
  · rw [← valid]
  · rw [Input.lines_append breaks.complete, validLines_append_of_valid valid, lines, validLines,
      read, List.append_nil]

end Tabular.Text
