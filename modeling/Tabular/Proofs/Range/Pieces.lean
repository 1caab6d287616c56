import Tabular.Proofs.Range.DashBounds
import Tabular.Proofs.Text.Pieces

/-!
# Pieces of ranges

A text with a colon is read as an interval by its first two pieces, and any other text by the pieces
between its commas, each of them alone. Blanks around the text or around a piece do not count.
-/

namespace Tabular.Range

open Text (trimChars piecesBy)

variable {cs start stop behind : List Char}

theorem readSign_cases (cs : List Char) :
    (Decimal.readSign cs).2 = cs ∨
      ∃ sign, (sign = '-' ∨ sign = '+') ∧ cs = sign :: (Decimal.readSign cs).2 := by
  unfold Decimal.readSign
  split
  · exact .inr ⟨'-', .inl rfl, rfl⟩
  · exact .inr ⟨'+', .inr rfl, rfl⟩
  · exact .inl rfl

theorem mem_of_readInt? {m : Int} (read : Decimal.readInt? cs = some m) {c : Char}
    (member : c ∈ cs) : c.isDigit = true ∨ c = '-' ∨ c = '+' := by
  obtain ⟨negative, digits, n, parts, -, all, -⟩ := Decimal.exists_of_readInt? read
  have known := readSign_cases cs
  rw [parts] at known
  dsimp only at known
  rcases known with whole | ⟨sign, signs, whole⟩
  · exact .inl (all c (whole ▸ member))
  · rw [whole, List.mem_cons] at member
    rcases member with rfl | later
    · exact .inr signs
    · exact .inl (all c later)

theorem readWord?_eq_none {c : Char} (member : c ∈ cs) (stray : c.isDigit = false)
    (dash : c ≠ '-') (plus : c ≠ '+') : Decimal.readWord? cs = none := by
  rw [Decimal.readWord?]
  cases read : Decimal.readInt? cs with
  | none => rfl
  | some m =>
    rcases mem_of_readInt? read member with digit | same | same
    · cases stray.symm.trans digit
    · exact absurd same dash
    · exact absurd same plus

/-- A dash behind something else is no sign. -/
theorem readWord?_dashed (filled : cs ≠ []) (rest : List Char) :
    Decimal.readWord? (cs ++ '-' :: rest) = none := by
  rw [Decimal.readWord?]
  cases read : Decimal.readInt? (cs ++ '-' :: rest) with
  | none => rfl
  | some m =>
    obtain ⟨negative, digits, n, parts, -, all, -⟩ := Decimal.exists_of_readInt? read
    have known := readSign_cases (cs ++ '-' :: rest)
    rw [parts] at known
    dsimp only at known
    have kept : '-' ∈ digits := by
      rcases known with whole | ⟨sign, -, whole⟩
      · simp [whole]
      · obtain ⟨c, cs, rfl⟩ := List.exists_cons_of_ne_nil filled
        rw [← (List.cons.inj whole).2]
        simp
    cases all '-' kept

theorem itemIndices_trimChars (cs : List Char) : itemIndices (trimChars cs) = itemIndices cs := by
  rw [itemIndices, Text.trimChars_trimChars, itemIndices]

theorem trimmedIndex?_trimChars (cs : List Char) :
    trimmedIndex? (trimChars cs) = trimmedIndex? cs := by
  rw [trimmedIndex?, Text.trimChars_trimChars, trimmedIndex?]

theorem readChars_trimChars (cs : List Char) : readChars (trimChars cs) = readChars cs := by
  rw [readChars, Text.trimChars_trimChars, readChars]

theorem flatMap_itemIndices_trimChars (cs : List Char) :
    (piecesBy (· == ',') (trimChars cs)).flatMap itemIndices =
      (piecesBy (· == ',') cs).flatMap itemIndices := by
  have each (pieces : List (List Char)) :
      pieces.flatMap itemIndices = (pieces.map trimChars).flatMap itemIndices := by
    rw [List.flatMap_map]
    exact List.flatMap_congr fun piece _ => (itemIndices_trimChars piece).symm
  rw [each, each (piecesBy _ cs), Text.map_trimChars_piecesBy_trimChars (Text.blank_apart rfl)]

theorem readChars_of_not_mem_colon (clear : ':' ∉ cs) :
    readChars cs = ofIndices ((piecesBy (· == ',') cs).flatMap itemIndices) := by
  have single (whole : ',' ∉ trimChars cs) :
      (piecesBy (· == ',') (trimChars cs)).flatMap itemIndices = itemIndices (trimChars cs) := by
    rw [Text.piecesBy_eq_singleton whole, List.flatMap_singleton]
  have closed : (trimChars cs).contains ':' = false := by
    simpa using fun member => clear (Text.mem_of_mem_trimChars member)
  rw [← flatMap_itemIndices_trimChars, readChars]
  cases read : Decimal.readWord? (trimChars cs) with
  | some w =>
    have whole : ',' ∉ trimChars cs := by
      intro member
      rw [readWord?_eq_none member rfl (by decide) (by decide)] at read
      cases read
    rw [single whole, itemIndices, Text.trimChars_trimChars, read]
  | none =>
    simp only [closed, Bool.false_eq_true, if_false]
    split
    · rfl
    · rename_i whole
      rw [single (by simpa using whole)]

theorem exists_sides (colon : ':' ∈ cs) :
    ∃ start stop behind, cs = start ++ ':' :: (stop ++ behind) ∧ ':' ∉ start ∧ ':' ∉ stop ∧
      (behind = [] ∨ ∃ more, behind = ':' :: more) := by
  obtain ⟨start, rest, rfl, first⟩ := List.eq_append_cons_of_mem colon
  by_cases again : ':' ∈ rest
  · obtain ⟨stop, more, rfl, second⟩ := List.eq_append_cons_of_mem again
    exact ⟨start, stop, _, rfl, first, second, .inr ⟨more, rfl⟩⟩
  · exact ⟨start, rest, [], by rw [List.append_nil], first, again, .inl rfl⟩

/-- A text with a colon is an interval between its first two pieces. -/
theorem readChars_interval (first : ':' ∉ start) (second : ':' ∉ stop)
    (ends : behind = [] ∨ ∃ more, behind = ':' :: more) :
    readChars (start ++ ':' :: (stop ++ behind)) =
      ⟨.interval (trimmedIndex? start) (trimmedIndex? stop), false⟩ := by
  obtain ⟨more, pieces⟩ : ∃ more, piecesBy (· == ':') (start ++ ':' :: (stop ++ behind)) =
      start :: stop :: more := by
    rw [Text.piecesBy_append_cons first]
    rcases ends with rfl | ⟨more, rfl⟩
    · exact ⟨[], by rw [List.append_nil, Text.piecesBy_eq_singleton second]⟩
    · exact ⟨_, by rw [Text.piecesBy_append_cons second]⟩
  -- The pieces of the trimmed text are these two but for blanks at their ends.
  have trimmed := Text.map_trimChars_piecesBy_trimChars (@Text.blank_apart ':' rfl)
    (start ++ ':' :: (stop ++ behind))
  rw [readChars]
  generalize trimChars (start ++ ':' :: (stop ++ behind)) = text at trimmed
  rw [pieces, List.map_cons, List.map_cons] at trimmed
  have open_ : ':' ∈ text := by
    by_contra clear
    have count := congrArg List.length trimmed
    rw [Text.piecesBy_eq_singleton clear] at count
    simp at count
  rw [readWord?_eq_none open_ rfl (by decide) (by decide)]
  simp only [List.contains_iff_mem.mpr open_, if_true]
  obtain ⟨one, others, parts, same, rest⟩ := List.map_eq_cons_iff.mp trimmed
  obtain ⟨two, others, rfl, again, -⟩ := List.map_eq_cons_iff.mp rest
  rw [parts]
  simp only [← trimmedIndex?_trimChars one, ← trimmedIndex?_trimChars two, same, again,
    trimmedIndex?_trimChars]

end Tabular.Range
