import Tabular.Job.Reader
import Tabular.Proofs.Text.Pieces

/-!
# Requested labels

Labels become keys when they stand between the brackets of a token. Labels without the marks that
the token is cut at, and without blanks at their ends, are read back as they are.
-/

namespace Tabular

/-- Labels that tell the columns apart and that one token can ask for as keys of one name each. -/
structure KeyLabels (labels : List String) : Prop where
  filled : labels ≠ []
  distinct : labels.Nodup
  named : ∀ label ∈ labels, label ≠ ""
  /-- They do not end the token, a key or a name in it. -/
  plain : ∀ label ∈ labels, ',' ∉ label.toList ∧ ']' ∉ label.toList ∧ '.' ∉ label.toList
  trimmed : ∀ label ∈ labels, Text.trim label = label

variable {labels : List String}

/-- The bracket that ends the token does not stand among the labels. -/
theorem KeyLabels.ne_of_mem_intercalate (keyLabels : KeyLabels labels) :
    ∀ c ∈ (",".intercalate labels).toList, (c != ']') = true := by
  intro c member
  rw [String.toList_intercalate] at member
  refine bne_iff_ne.mpr ?_
  rintro rfl
  rcases Text.mem_intercalate member with comma | ⟨piece, among, inside⟩
  · exact absurd comma (by decide)
  · obtain ⟨label, known, rfl⟩ := List.mem_map.mp among
    exact (keyLabels.plain label known).2.1 inside

namespace Directive

def keysToken (keys : List String) : String :=
  "keys[" ++ ",".intercalate keys ++ "]"

theorem toList_keysToken (keys : List String) :
    (keysToken keys).toList = 'k' :: 'e' :: 'y' :: 's' :: '[' ::
      ((",".intercalate keys).toList ++ [']']) := by
  rw [keysToken, String.toList_append, String.toList_append]
  rfl

theorem readBracketed_keysToken (keyLabels : KeyLabels labels) :
    readBracketed (keysToken labels) = .ok ⟨",".intercalate labels, []⟩ := by
  have letters : (keysToken labels).toList.dropWhile Char.isAlpha =
      '[' :: ((",".intercalate labels).toList ++ [']']) := by
    rw [toList_keysToken]
    rfl
  have inside := keyLabels.ne_of_mem_intercalate
  have rest : ((",".intercalate labels).toList ++ [']']).dropWhile (· != ']') = [']'] := by
    rw [List.dropWhile_append_of_pos inside]
    rfl
  have body : ((",".intercalate labels).toList ++ [']']).takeWhile (· != ']') =
      (",".intercalate labels).toList := by
    rw [List.takeWhile_append_of_pos inside]
    exact List.append_nil _
  simp only [readBracketed, letters, rest, body, String.ofList_toList]

theorem readNames_keysToken (keyLabels : KeyLabels labels) :
    readNames (keysToken labels) = .ok labels := by
  obtain ⟨first, more, rfl⟩ := List.exists_cons_of_ne_nil keyLabels.filled
  have visible : Text.isBlankText (",".intercalate (first :: more)) = false := by
    have known : first ∈ first :: more := List.mem_cons_self
    have filled := Text.isBlankText_eq_false (keyLabels.named first known)
      (keyLabels.trimmed first known)
    obtain ⟨c, member, noBlank⟩ := List.all_eq_false.mp filled
    refine List.all_eq_false.mpr ⟨c, ?_, noBlank⟩
    rw [String.toList_intercalate]
    exact (Text.prefix_intercalate_cons _ _ _).subset member
  have parts : Text.splitAtChar ',' (",".intercalate (first :: more)) = first :: more :=
    Text.splitAtChar_intercalate keyLabels.filled fun label known =>
      (keyLabels.plain label known).1
  have trimmed : (first :: more).map Text.trim = first :: more :=
    (List.map_congr_left keyLabels.trimmed).trans (List.map_id _)
  rw [readNames, readBracketed_keysToken keyLabels]
  simp only [bind, Except.bind, visible, parts, trimmed]
  rfl

theorem readTrimmed_keysToken (keys : List String) :
    readTrimmed (keysToken keys) = (readNames (keysToken keys)).map Directive.keys := by
  have spelled := toList_keysToken keys
  generalize keysToken keys = token at spelled
  generalize (",".intercalate keys).toList ++ [']'] = body at spelled
  -- The other forms begin with another letter, and the names without brackets are other texts.
  have otherForm (name : String) (differs : name.toList.head?.any (· != 'k')) :
      Text.dropLead? name.toList token.toList = none := by
    rw [spelled]
    cases letters : name.toList with
    | nil => simp [letters] at differs
    | cons c more =>
      rw [Text.dropLead?, if_neg (by simpa [letters] using differs)]
  have keysForm : Text.dropLead? "keys".toList token.toList = some ('[' :: body) := by
    rw [spelled]
    rfl
  have otherName (name : String) (differs : name.toList.drop 4 ≠ '[' :: body) : token ≠ name := by
    rintro rfl
    exact differs (by rw [spelled]; rfl)
  simp only [readTrimmed, Text.stripLead?, Text.startsWith, keysForm, otherForm "lmerge" rfl,
    otherForm "merge:" rfl, otherForm "row[" rfl, otherForm "col[" rfl, otherForm "ncol[" rfl,
    otherForm "sort[" rfl, otherForm "split:" rfl, otherForm "wrap:" rfl, otherForm "tr" rfl,
    otherForm "group[" rfl, otherForm "out" rfl, otherForm "head" rfl, otherForm "calc" rfl,
    otherName "-inhead" (by simp), otherName "-outhead" (by simp), otherName "keys" (by simp),
    Option.map_none, Option.isSome_none, Option.isSome_some, Bool.false_eq_true, if_false, if_true]
  cases readNames token <;> rfl

theorem read_keysToken (keyLabels : KeyLabels labels) :
    read (keysToken labels) = .ok (.keys labels) := by
  have visible : Text.trim (keysToken labels) = keysToken labels := by
    rw [Text.trim, Text.trimChars_eq_self, String.ofList_toList]
    · rw [toList_keysToken]
      rintro c ⟨⟩
      decide
    · rw [toList_keysToken]
      intro c last
      change c ∈ (('k' :: 'e' :: 'y' :: 's' :: '[' :: (",".intercalate labels).toList) ++
        [']']).getLast? at last
      rw [List.getLast?_concat] at last
      cases last
      decide
  rw [read, visible, readTrimmed_keysToken, readNames_keysToken keyLabels]
  rfl

end Directive

end Tabular
