import Tabular.Range.Basic
import Mathlib.Data.List.Range

/-!
# Positions and membership

A range is used in two ways: its positions are listed, or one position is tested, with the length of
the list or without it. Both agree with what the span names, and an excluded span gives the other
positions of the list in ascending order. This holds however negative indices are resolved.
-/

namespace Tabular

/-- Whether a span names a position when a list has `length` elements. -/
def Span.names (span : Span) (resolve : Int → Int) (length i : Int) : Bool :=
  match span with
  | .listed indices => indices.any fun index => resolve index == i
  | .interval start stop =>
    decide ((start.map resolve).getD 0 ≤ i) && decide (i < (stop.map resolve).getD length)

def Span.indices : Span → List Int
  | listed indices => indices
  | interval start stop => start.toList ++ stop.toList

namespace Range

theorem mem_integersFrom {start stop i : Int} :
    i ∈ integersFrom start stop ↔ start ≤ i ∧ i < stop := by
  simp only [integersFrom, List.mem_map, List.mem_range]
  constructor
  · rintro ⟨n, below, rfl⟩
    omega
  · rintro ⟨above, below⟩
    exact ⟨(i - start).toNat, by omega, by omega⟩

theorem pairwise_integersFrom (start stop : Int) :
    (integersFrom start stop).Pairwise (· < ·) := by
  rw [integersFrom, List.pairwise_map]
  exact List.pairwise_lt_range.imp fun less => by omega

theorem mem_filterMap_inBounds? {positions : List Int} {length p : Nat} :
    p ∈ positions.filterMap (inBounds? length) ↔ (p : Int) ∈ positions ∧ p < length := by
  simp only [List.mem_filterMap, inBounds?]
  constructor
  · rintro ⟨i, member, place⟩
    split at place
    · rename_i inside
      obtain rfl : (p : Int) = i := by
        have := Option.some.inj place
        omega
      exact ⟨member, by omega⟩
    · cases place
  · rintro ⟨member, inside⟩
    exact ⟨p, member, by simp [inside]⟩

section

variable {resolve : Int → Int} {length i : Int} {range : Range}

theorem mem_positionsBy_included {span : Span} :
    i ∈ positionsBy ⟨span, false⟩ resolve length ↔ span.names resolve length i := by
  cases span with
  | listed indices => simp [positionsBy, Span.names]
  | interval start stop => simp [positionsBy, Span.names, mem_integersFrom]

theorem positionsBy_excluded (span : Span) (resolve : Int → Int) (length : Int) :
    positionsBy ⟨span, true⟩ resolve length =
      (integersFrom 0 length).filter fun i => !span.names resolve length i := by
  cases span with
  | listed indices =>
    refine List.filter_congr fun i _ => ?_
    have same : (indices.map resolve).contains i =
        (Span.listed indices).names resolve length i := by
      rw [Bool.eq_iff_iff]
      simp [Span.names]
    rw [same]
  | interval start stop => rfl

theorem pairwise_positionsBy_excluded (span : Span) (resolve : Int → Int) (length : Int) :
    (positionsBy ⟨span, true⟩ resolve length).Pairwise (· < ·) := by
  rw [positionsBy_excluded]
  exact (pairwise_integersFrom 0 length).filter _

theorem mem_positionsBy_iff (above : 0 ≤ i) (below : i < length) :
    i ∈ range.positionsBy resolve length ↔
      (range.span.names resolve length i != range.excluded) := by
  obtain ⟨span, excluded⟩ := range
  cases excluded with
  | false => simp [mem_positionsBy_included]
  | true => simp [positionsBy_excluded, mem_integersFrom, above, below]

/-- The positions of an excluded span are those of the list that the span does not name. -/
theorem mem_positionsBy_excluded {span : Span} :
    i ∈ positionsBy ⟨span, true⟩ resolve length ↔
      0 ≤ i ∧ i < length ∧ i ∉ positionsBy ⟨span, false⟩ resolve length := by
  rw [positionsBy_excluded, List.mem_filter, mem_integersFrom, mem_positionsBy_included, and_assoc]
  simp

theorem containsBy_some {last? : Option Int} (above : 0 ≤ i) (below : i < length)
    (within : ∀ last ∈ last?, i < last) :
    range.containsBy (fun index => some (resolve index)) last? i =
      decide (i ∈ range.positionsBy resolve length) := by
  rw [Bool.eq_iff_iff, decide_eq_true_eq, mem_positionsBy_iff above below]
  obtain ⟨span, excluded⟩ := range
  cases span with
  | listed indices => simp [containsBy, Span.names]
  | interval start stop =>
    have unbounded : last?.all (fun last : Int => decide (i < last)) = true := by
      simpa [Option.all_eq_true] using within
    cases start <;> cases stop <;> simp [containsBy, Span.names, above, below, unbounded]

theorem positionsBy_congr {resolve other : Int → Int}
    (same : ∀ index ∈ range.span.indices, resolve index = other index) (length : Int) :
    range.positionsBy resolve length = range.positionsBy other length := by
  obtain ⟨span, excluded⟩ := range
  cases span with
  | listed indices =>
    have each : indices.map resolve = indices.map other := List.map_congr_left same
    simp only [positionsBy, each]
  | interval start stop =>
    cases start <;> cases stop <;> simp_all [positionsBy, Span.indices]

theorem containsBy_congr {resolve? other? : Int → Option Int}
    (same : ∀ index ∈ range.span.indices, resolve? index = other? index)
    (last? : Option Int) (i : Int) :
    range.containsBy resolve? last? i = range.containsBy other? last? i := by
  obtain ⟨span, excluded⟩ := range
  cases span with
  | listed indices =>
    have each : indices.any (fun index => resolve? index == some i) =
        indices.any (fun index => other? index == some i) := by
      rw [Bool.eq_iff_iff, List.any_eq_true, List.any_eq_true]
      refine exists_congr fun index => and_congr_right fun member => ?_
      rw [same index member]
    simp only [containsBy, each]
  | interval start stop =>
    cases start <;> cases stop <;> simp_all [containsBy, Span.indices]

theorem nonneg_of_needsLength (forward : range.needsLength = false) :
    ∀ index ∈ range.span.indices, 0 ≤ index := by
  obtain ⟨span, excluded⟩ := range
  cases span with
  | listed indices => simpa [needsLength, Span.indices] using forward
  | interval start stop =>
    cases start <;> cases stop <;> simp_all [needsLength, Span.indices]

end

variable {length p : Nat} {range : Range}

theorem mem_positionsInBounds :
    p ∈ range.positionsInBounds length ↔ (p : Int) ∈ range.positions length ∧ p < length :=
  mem_filterMap_inBounds?

theorem mem_positionsInBounds_iff (inside : p < length) :
    p ∈ range.positionsInBounds length ↔
      (range.span.names (resolve length) length p != range.excluded) := by
  rw [mem_positionsInBounds, positions, mem_positionsBy_iff (by omega) (by omega)]
  exact and_iff_left inside

theorem contains_some (inside : p < length) :
    range.contains p (some length) = decide (p ∈ range.positionsInBounds length) := by
  rw [decide_eq_decide.mpr (mem_positionsInBounds.trans (and_iff_left inside))]
  exact containsBy_some (by omega) (by omega) (by simp)

theorem contains_none (forward : range.needsLength = false) (p length : Nat) :
    range.contains p none = range.contains p (some length) := by
  refine containsBy_congr (fun index member => ?_) none p
  have above := nonneg_of_needsLength forward index member
  simp [resolve?, resolve, Int.not_lt.mpr above]

end Range

end Tabular
