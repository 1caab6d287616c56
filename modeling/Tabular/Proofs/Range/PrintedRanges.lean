import Tabular.Proofs.Range.Pieces

/-!
# Printed ranges

Integers and intervals that were printed with commas between them, with blanks around each if one
likes, are read as they were meant, and so is an interval that was printed with a colon. A minus
sign and the dash of an interval are the same character, and they are told apart in all places.
-/

namespace Tabular.Range

open Decimal (natChars intChars wordText)

/-- A bound of a dash interval. The least word is none, because its digits alone are no word. -/
structure Bound where
  value : Int64
  above : Int64.minValue < value

inductive Entry where
  | index (value : Int64)
  | interval (lower upper : Bound)

namespace Entry

def text : Entry → String
  | index value => wordText value
  | interval lower upper => wordText lower.value ++ "-" ++ wordText upper.value

def indices : Entry → List Int
  | index value => [value.toInt]
  | interval lower upper => integersFrom lower.value.toInt upper.value.toInt

end Entry

structure PaddedEntry where
  lead : String
  entry : Entry
  tail : String
  lead_blank : Text.isBlankText lead
  tail_blank : Text.isBlankText tail

def PaddedEntry.text (padded : PaddedEntry) : String :=
  padded.lead ++ padded.entry.text ++ padded.tail

/-- A side of a printed interval; an open side is empty. -/
def sideText (side : Option Int64) : String :=
  side.elim "" wordText

theorem mem_intChars {m : Int} {c : Char} (member : c ∈ intChars m) :
    c.isDigit = true ∨ c = '-' := by
  unfold intChars at member
  split at member
  · exact (List.mem_cons.mp member).symm.imp_left Decimal.isDigit_of_mem_natChars
  · exact .inl (Decimal.isDigit_of_mem_natChars member)

theorem writes_natChars {n : Nat} (small : n < 2 ^ 63) : Writes n (natChars n) := by
  have digits : (natChars n).filter Char.isDigit = natChars n :=
    List.filter_eq_self.mpr fun _ member => Decimal.isDigit_of_mem_natChars member
  refine ⟨fun dash => ?_, ?_, small⟩
  · cases Decimal.isDigit_of_mem_natChars dash
  · rw [digits, Decimal.readNat?_natChars]

theorem signed_natAbs (m : Int) : signed (decide (m < 0)) m.natAbs = m := by
  by_cases below : m < 0
  · simp only [signed, below, decide_true, if_true]
    omega
  · simp only [signed, below, decide_false, Bool.false_eq_true, if_false]
    omega

theorem begins_intChars (negative : Bool) (m : Int) (rest : List Char) :
    Begins negative (intChars m ++ rest) (decide (m < 0)) (natChars m.natAbs ++ rest) := by
  unfold intChars
  split
  · rename_i below
    rw [decide_eq_true below]
    exact .dash _
  · rename_i above
    obtain ⟨c, cs, spelled⟩ :=
      List.exists_cons_of_ne_nil (Decimal.natChars_ne_nil m.natAbs)
    have digit : c.isDigit = true :=
      Decimal.isDigit_of_mem_natChars (spelled ▸ List.mem_cons_self)
    rw [decide_eq_false above, spelled]
    exact .digit _ digit

/-- Both bounds of a printed interval are read, whatever their signs. -/
theorem dashBounds_intChars {a b : Int} (first : a.natAbs < 2 ^ 63) (second : b.natAbs < 2 ^ 63) :
    dashBounds (intChars a ++ '-' :: intChars b) = [a, b] := by
  have last := begins_intChars (decide (a < 0)) b []
  rw [List.append_nil, List.append_nil] at last
  have spells := Spells.next (writes_natChars first) last (.last (writes_natChars second))
  rw [signed_natAbs, signed_natAbs] at spells
  exact dashBounds_of_spells (begins_intChars false a _) spells

theorem Bound.natAbs_lt (bound : Bound) : bound.value.toInt.natAbs < 2 ^ 63 := by
  have most := Int64.toInt_lt bound.value
  have least := Int64.lt_iff_toInt_lt.mp bound.above
  rw [Int64.toInt_minValue] at least
  omega

theorem mem_text {entry : Entry} {c : Char} (member : c ∈ entry.text.toList) :
    c.isDigit = true ∨ c = '-' := by
  cases entry with
  | index value =>
    rw [Entry.text, wordText, Decimal.intText, String.toList_ofList] at member
    exact mem_intChars member
  | interval lower upper =>
    simp only [Entry.text, wordText, Decimal.intText, String.toList_append, String.toList_ofList,
      List.mem_append] at member
    rcases member with (first | dash) | second
    · exact mem_intChars first
    · exact .inr (List.mem_singleton.mp dash)
    · exact mem_intChars second

theorem trimChars_text (entry : Entry) :
    Text.trimChars entry.text.toList = entry.text.toList := by
  have visible : ∀ c ∈ entry.text.toList, Text.isBlank c = false := by
    intro c member
    rcases mem_text member with digit | rfl
    · exact Text.isBlank_of_isDigit digit
    · rfl
  exact Text.trimChars_eq_self (fun c first => visible c (List.mem_of_mem_head? first))
    fun c last => visible c (List.mem_of_getLast? last)

theorem itemIndices_text (entry : Entry) : itemIndices entry.text.toList = entry.indices := by
  rw [itemIndices, trimChars_text]
  cases entry with
  | index value => simp only [Entry.text, Decimal.readWord?_wordText, Entry.indices]
  | interval lower upper =>
    have chars : (Entry.interval lower upper).text.toList =
        intChars lower.value.toInt ++ '-' :: intChars upper.value.toInt := by
      simp [Entry.text, wordText, Decimal.intText]
    rw [chars, readWord?_dashed (Decimal.intChars_ne_nil _),
      dashBounds_intChars lower.natAbs_lt upper.natAbs_lt]
    rfl

theorem itemIndices_padded (padded : PaddedEntry) :
    itemIndices padded.text.toList = padded.entry.indices := by
  rw [← itemIndices_text, ← itemIndices_trimChars, PaddedEntry.text, String.toList_append,
    String.toList_append, List.append_assoc,
    Text.trimChars_append_left (List.all_eq_true.mp padded.lead_blank),
    Text.trimChars_append_right (List.all_eq_true.mp padded.tail_blank), itemIndices_trimChars]

theorem not_mem_padded {padded : PaddedEntry} {separator : Char}
    (visible : Text.isBlank separator = false)
    (apart : separator.isDigit = false ∧ separator ≠ '-') :
    separator ∉ padded.text.toList := by
  intro member
  simp only [PaddedEntry.text, String.toList_append, List.mem_append] at member
  rcases member with (lead | inside) | tail
  · cases visible.symm.trans (List.all_eq_true.mp padded.lead_blank _ lead)
  · rcases mem_text inside with digit | same
    · cases apart.1.symm.trans digit
    · exact apart.2 same
  · cases visible.symm.trans (List.all_eq_true.mp padded.tail_blank _ tail)

theorem read_printed_list {entries : List PaddedEntry} (filled : entries ≠ []) :
    read (",".intercalate (entries.map PaddedEntry.text)) =
      ⟨.listed (entries.flatMap (·.entry.indices)), false⟩ := by
  have chars : (",".intercalate (entries.map PaddedEntry.text)).toList =
      [','].intercalate (entries.map fun padded => padded.text.toList) := by
    rw [String.toList_intercalate, List.map_map]
    rfl
  rw [read, chars, readChars_of_not_mem_colon]
  · rw [Text.piecesBy_intercalate, List.flatMap_map]
    · simp only [itemIndices_padded]
      rfl
    · simpa using filled
    · intro piece member
      obtain ⟨padded, -, rfl⟩ := List.mem_map.mp member
      exact not_mem_padded rfl (by decide)
  · intro member
    rcases Text.mem_intercalate member with separator | ⟨piece, known, inside⟩
    · cases List.mem_singleton.mp separator
    · obtain ⟨padded, -, rfl⟩ := List.mem_map.mp known
      exact not_mem_padded rfl (by decide) inside

theorem trimmedIndex?_sideText (side : Option Int64) :
    trimmedIndex? (sideText side).toList = side.map Int64.toInt := by
  cases side with
  | none => rfl
  | some value =>
    have trimmed : Text.trimChars (wordText value).toList = (wordText value).toList :=
      trimChars_text (.index value)
    rw [sideText, Option.elim, trimmedIndex?, trimmed, Decimal.readWord?_wordText]

theorem not_mem_sideText (side : Option Int64) : ':' ∉ (sideText side).toList := by
  cases side with
  | none => exact List.not_mem_nil
  | some value =>
    intro member
    rcases @mem_text (.index value) ':' member with digit | same
    · cases digit
    · cases same

/-- What was printed is read again. Integers and intervals with commas between them, and blanks
around each of them, give the indices that they stand for in their order, and two sides with a colon
between them give an interval with these bounds. -/
theorem read_printed {entries : List PaddedEntry} (filled : entries ≠ [])
    (start stop : Option Int64) :
    read (",".intercalate (entries.map PaddedEntry.text)) =
      ⟨.listed (entries.flatMap (·.entry.indices)), false⟩ ∧
    read (sideText start ++ ":" ++ sideText stop) =
      ⟨.interval (start.map Int64.toInt) (stop.map Int64.toInt), false⟩ := by
  refine ⟨read_printed_list filled, ?_⟩
  have chars : (sideText start ++ ":" ++ sideText stop).toList =
      (sideText start).toList ++ ':' :: ((sideText stop).toList ++ []) := by
    simp
  rw [read, chars, readChars_interval (not_mem_sideText start) (not_mem_sideText stop) (.inl rfl),
    trimmedIndex?_sideText, trimmedIndex?_sideText]

/-- All signs of both bounds, the least word and blanks of several kinds. -/
theorem read_printed_signs :
    let bound (value : Int64) (above : Int64.minValue < value) : Bound := ⟨value, above⟩
    let entries : List PaddedEntry :=
      [⟨" ", .interval (bound (-2) (by decide)) (bound 1 (by decide)), "", rfl, rfl⟩,
        ⟨"", .index Int64.minValue, "\t", rfl, rfl⟩,
        ⟨"", .interval (bound 3 (by decide)) (bound (-3) (by decide)), "", rfl, rfl⟩,
        ⟨"\n", .interval (bound (-3) (by decide)) (bound (-1) (by decide)), " ", rfl, rfl⟩,
        ⟨"", .interval (bound 10 (by decide)) (bound 12 (by decide)), "", rfl, rfl⟩]
    entries ≠ [] ∧
    ",".intercalate (entries.map PaddedEntry.text) =
      " -2-1,-9223372036854775808\t,3--3,\n-3--1 ,10-12" ∧
    read " -2-1,-9223372036854775808\t,3--3,\n-3--1 ,10-12" =
      ⟨.listed [-2, -1, 0, -9223372036854775808, -3, -2, 10, 11], false⟩ ∧
    read "-1:" = ⟨.interval (some (-1)) none, false⟩ := by
  intro bound entries
  have filled : entries ≠ [] := List.cons_ne_nil _ _
  have printed : ",".intercalate (entries.map PaddedEntry.text) =
      " -2-1,-9223372036854775808\t,3--3,\n-3--1 ,10-12" := by
    decide
  obtain ⟨list, interval⟩ := read_printed filled (some (-1)) none
  rw [printed] at list
  exact ⟨filled, printed, list, interval⟩

end Tabular.Range
