import Tabular.Range.Words
import Tabular.Proofs.Range.Membership
import Tabular.Proofs.Range.Pieces

/-!
# Lengths in machine words

A length below the sign bit is the same number as a signed word, and then a range of words has the
positions over machine words that it has in a list of that length. From the sign bit on the
positions are lost, while membership goes on to the greatest signed word.
-/

namespace Tabular.Range

section

variable {length p : UInt64} {range : Range}

theorem signedWord_of_small {n : UInt64} (small : n.toNat < 2 ^ 63) : signedWord n = n.toNat := by
  have bits : 2 * n.toBitVec.toNat < 2 ^ 64 := by
    rw [UInt64.toNat_toBitVec]
    omega
  exact BitVec.toInt_eq_toNat_of_lt bits

theorem wordContains_some (small : length.toNat < 2 ^ 63) (inside : p < length) :
    range.wordContains p (some length) = decide (p.toNat ∈ range.wordPositionsInBounds length) := by
  have below : p.toNat < length.toNat := UInt64.lt_iff_toNat_lt.mp inside
  have place : signedWord p = p.toNat := signedWord_of_small (by omega)
  have listed : p.toNat ∈ range.wordPositionsInBounds length ↔
      signedWord p ∈ range.wordPositions length := by
    rw [wordPositionsInBounds, mem_filterMap_inBounds?, place, and_iff_left below]
  rw [decide_eq_decide.mpr listed]
  refine containsBy_some (by omega) (by rw [place, signedWord_of_small small]; omega) ?_
  rintro last ⟨⟩
  rw [place, Int64.toInt_maxValue]
  omega

theorem wordContains_none (forward : range.needsLength = false) (p length : UInt64) :
    range.wordContains p none = range.wordContains p (some length) := by
  refine containsBy_congr (fun index member => ?_) _ _
  have above := nonneg_of_needsLength forward index member
  simp [resolveWord?, resolveWord, Int.not_lt.mpr above]

theorem mem_wordPositions_excluded {span : Span} (small : length.toNat < 2 ^ 63) {i : Int} :
    i ∈ wordPositions ⟨span, true⟩ length ↔
      ∃ p < length.toNat, i = p ∧ p ∉ wordPositionsInBounds ⟨span, false⟩ length := by
  rw [wordPositions, mem_positionsBy_excluded, signedWord_of_small small]
  constructor
  · rintro ⟨above, below, other⟩
    obtain ⟨p, rfl⟩ := Int.eq_ofNat_of_zero_le above
    refine ⟨p, by omega, rfl, fun member => other ?_⟩
    have := (mem_filterMap_inBounds?.mp member).1
    rwa [wordPositions, signedWord_of_small small] at this
  · rintro ⟨p, inside, rfl, other⟩
    refine ⟨by omega, by omega, fun member => other ?_⟩
    refine mem_filterMap_inBounds?.mpr ⟨?_, inside⟩
    rwa [wordPositions, signedWord_of_small small]

end

def IsWord (n : Int) : Prop :=
  -2 ^ 63 ≤ n ∧ n < 2 ^ 63

def HoldsWords (range : Range) : Prop :=
  ∀ index ∈ range.span.indices, IsWord index

theorem isWord_toInt (w : Int64) : IsWord w.toInt :=
  ⟨Int64.le_toInt w, Int64.toInt_lt w⟩

/-- Counting a word from the end of a list does not wrap around. -/
theorem resolveWord_eq {length : UInt64} (small : length.toNat < 2 ^ 63) {index : Int}
    (word : IsWord index) : resolveWord length index = resolve length.toNat index := by
  obtain ⟨least, most⟩ := word
  have signed : length.toInt64.toInt = length.toNat := signedWord_of_small small
  unfold resolveWord resolve
  split
  · rename_i negative
    rw [Int64.toInt_add, signed, Int64.toInt_ofInt_of_le least most]
    exact Int.bmod_eq_of_le_mul_two (by omega) (by omega)
  · rfl

theorem wordPositions_eq {range : Range} (words : range.HoldsWords) {length : UInt64}
    (small : length.toNat < 2 ^ 63) :
    range.wordPositions length = range.positions length.toNat := by
  rw [wordPositions, positions, signedWord_of_small small]
  exact positionsBy_congr (fun index member => resolveWord_eq small (words index member)) _

theorem wordPositionsInBounds_eq {range : Range} (words : range.HoldsWords) {length : UInt64}
    (small : length.toNat < 2 ^ 63) :
    range.wordPositionsInBounds length = range.positionsInBounds length.toNat :=
  congrArg (List.filterMap (inBounds? length.toNat)) (wordPositions_eq words small)

theorem wordContains_eq {range : Range} (words : range.HoldsWords) {length p : UInt64}
    (small : length.toNat < 2 ^ 63) (inside : p < length) :
    range.wordContains p (some length) = range.contains p.toNat (some length.toNat) := by
  rw [wordContains_some small inside, contains_some (UInt64.lt_iff_toNat_lt.mp inside),
    wordPositionsInBounds_eq words small]

theorem isWord_of_mem_integersFrom {lower upper i : Int} (first : IsWord lower)
    (last : IsWord upper) (member : i ∈ integersFrom lower upper) : IsWord i := by
  have between := mem_integersFrom.mp member
  have least := first.1
  have most := last.2
  exact ⟨by omega, by omega⟩

theorem Spells.isWord {negative : Bool} {cs : List Char} {bounds : List Int}
    (spells : Spells negative cs bounds) : ∀ bound ∈ bounds, IsWord bound := by
  have one {n : Nat} (negative : Bool) (small : n < 2 ^ 63) : IsWord (signed negative n) := by
    cases negative <;> simp only [signed, IsWord] <;> omega
  induction spells with
  | idle => simp
  | last writes => simpa using one _ writes.2.2
  | next writes _ _ ih => exact List.forall_mem_cons.mpr ⟨one _ writes.2.2, ih⟩

theorem isWord_of_mem_dashBounds {cs : List Char} {bound : Int} (member : bound ∈ dashBounds cs) :
    IsWord bound := by
  obtain ⟨sign, rest, -, spells⟩ := exists_spells_dashBounds (List.ne_nil_of_mem member)
  exact spells.isWord bound member

theorem isWord_of_mem_itemIndices {cs : List Char} {index : Int}
    (member : index ∈ itemIndices cs) : IsWord index := by
  simp only [itemIndices] at member
  split at member
  · rw [List.mem_singleton.mp member]
    exact isWord_toInt _
  · have words := fun bound => @isWord_of_mem_dashBounds (Text.trimChars cs) bound
    unfold resolveBounds at member
    split at member
    · rename_i bounds
      exact words _ (bounds ▸ member)
    · rename_i bounds
      exact isWord_of_mem_integersFrom (words _ (by simp [bounds])) (words _ (by simp [bounds]))
        member
    · cases member

theorem isWord_of_trimmedIndex? {cs : List Char} {index : Int}
    (found : index ∈ trimmedIndex? cs) : IsWord index := by
  obtain ⟨w, -, rfl⟩ := Option.map_eq_some_iff.mp found
  exact isWord_toInt w

theorem holdsWords_read (s : String) : (read s).HoldsWords := by
  intro index member
  rw [read] at member
  by_cases colon : ':' ∈ s.toList
  · obtain ⟨start, stop, behind, sides, first, second, ends⟩ := exists_sides colon
    rw [sides, readChars_interval first second ends, Span.indices, List.mem_append] at member
    rcases member with left | right
    · exact isWord_of_trimmedIndex? (Option.mem_toList.mp left)
    · exact isWord_of_trimmedIndex? (Option.mem_toList.mp right)
  · rw [readChars_of_not_mem_colon colon] at member
    obtain ⟨part, -, inside⟩ := List.mem_flatMap.mp member
    exact isWord_of_mem_itemIndices inside

end Tabular.Range
