import Tabular.Proofs.Decimal.Places
import Tabular.Proofs.Table.SortedRows

/-!
# Descending and ascending order

Sorting in the other direction gives the rows in reverse where the keys are numbers of different
values, unless a key takes one that stands in front of it for its equal. A word does so with the
numbers that are cut to it, and a number with the words that are rounded to it.
-/

namespace Tabular

namespace Sorting

def opposite {α : Type} (order : α → α → Ordering) (left right : α) : Ordering :=
  (order left right).swap

/-- An element compares others with itself on a scale of its own. No scale puts an element above
one of a larger value, but it may put the two at one place. -/
structure Scaled {α : Type} (order : α → α → Ordering) (value : α → ℚ) (scale : α → α → Int) :
    Prop where
  compares : ∀ left right, order left right = compare (scale left left) (scale left right)
  keeps : ∀ left {lower upper}, value lower < value upper → scale left lower ≤ scale left upper

section Scales

variable {α : Type} {order : α → α → Ordering} {value : α → ℚ} {scale : α → α → Int}

theorem Scaled.opposite (scaled : Scaled order value scale) :
    Scaled (opposite order) (fun item => -value item) (fun left item => -scale left item) := by
  refine ⟨fun left right => ?_, fun left lower upper less => ?_⟩
  · rw [Sorting.opposite, scaled.compares]
    obtain less | same | more := lt_trichotomy (scale left left) (scale left right)
    · rw [compare_lt_iff_lt.mpr less, compare_gt_iff_gt.mpr (neg_lt_neg less)]
      rfl
    · rw [same, compare_eq_iff_eq.mpr rfl, compare_eq_iff_eq.mpr rfl]
      rfl
    · rw [compare_gt_iff_gt.mpr more, compare_lt_iff_lt.mpr (neg_lt_neg more)]
      rfl
  · exact neg_le_neg (scaled.keeps left (neg_lt_neg_iff.mp less))

theorem Scaled.order_eq (scaled : Scaled order value scale) {left right : α}
    (apart : value left ≠ value right) (untied : order left right ≠ .eq) :
    order left right = compare (value left) (value right) := by
  rw [scaled.compares, Ne, compare_eq_iff_eq] at untied
  rw [scaled.compares]
  obtain less | more := lt_or_gt_of_ne apart
  · have kept := scaled.keeps left less
    rw [compare_lt_iff_lt.mpr less, compare_lt_iff_lt]
    omega
  · have kept := scaled.keeps left more
    rw [compare_gt_iff_gt.mpr more, compare_gt_iff_gt]
    omega

theorem Scaled.untied_of_lt (scaled : Scaled order value scale) {left lower upper : α}
    (less : order left lower = .lt) (place : lower = upper ∨ value lower < value upper) :
    order left upper ≠ .eq := by
  obtain rfl | above := place
  · rw [less]
    decide
  · have kept := scaled.keeps left above
    rw [scaled.compares, compare_lt_iff_lt] at less
    rw [scaled.compares, Ne, compare_eq_iff_eq]
    omega

variable {items : List α}

theorem pairwise_values (order : α → α → Ordering) (fuel : Nat)
    (distinct : (items.map value).Nodup) :
    (sortHalves order fuel items).Pairwise fun first second => value first ≠ value second :=
  List.pairwise_map.mp (((sortHalves_perm order fuel items).map value).nodup_iff.mpr distinct)

theorem pairwise_of_untied (scaled : Scaled order value scale) {fuel : Nat}
    (enough : items.length ≤ fuel) (distinct : (items.map value).Nodup)
    (untied : items.Pairwise fun earlier later => order later earlier ≠ .eq) :
    (sortHalves order fuel items).Pairwise fun first second => value first < value second := by
  have same : sortHalves order fuel items = sortHalves (compareOn value) fuel items := by
    apply sortHalves_congr
    refine ((List.pairwise_map.mp distinct).and untied).imp ?_
    rintro earlier later ⟨apart, told⟩
    exact scaled.order_eq (Ne.symm apart) told
  have sorted := @pairwise_sortHalves _ (compareOn value) _ _ _ enough
  rw [same]
  refine (sorted.and (pairwise_values _ fuel distinct)).imp ?_
  rintro first second ⟨le, apart⟩
  exact lt_of_le_of_ne (compare_le_iff_le.mp (Ordering.isLE_iff_ne_gt.mp le)) apart

section Halves

variable {fromLeft : α → Bool} {left right leftDown rightDown : List α}
  (inLeft : ∀ x ∈ left, fromLeft x = true) (inRight : ∀ y ∈ right, fromLeft y = false)
  (sameLeft : leftDown.Perm left) (sameRight : rightDown.Perm right)
  (reversed : merge (opposite order) leftDown rightDown = (merge order left right).reverse)

include inLeft inRight sameLeft sameRight reversed

theorem reverse_of_merge : leftDown = left.reverse ∧ rightDown = right.reverse := by
  have inLeftDown : ∀ x ∈ leftDown, fromLeft x = true :=
    fun x member => inLeft x (sameLeft.mem_iff.mp member)
  have inRightDown : ∀ y ∈ rightDown, fromLeft y = false :=
    fun y member => inRight y (sameRight.mem_iff.mp member)
  constructor
  · rw [← @filter_merge_left _ (opposite order) _ _ _ inLeftDown inRightDown, reversed,
      List.filter_reverse, filter_merge_left inLeft inRight]
  · rw [← @filter_merge_right _ (opposite order) _ _ _ inLeftDown inRightDown, reversed,
      List.filter_reverse, filter_merge_right inLeft inRight]

/-- An element of the right half that takes one of the left half for its equal would have to come
behind it in both directions. -/
theorem untied_of_merge (scaled : Scaled order value scale)
    (ascending : left.Pairwise fun first second => value first < value second) :
    ∀ x ∈ left, ∀ y ∈ right, order y x ≠ .eq := by
  obtain ⟨leftReversed, -⟩ := reverse_of_merge inLeft inRight sameLeft sameRight reversed
  have inLeftDown : ∀ x ∈ leftDown, fromLeft x = true :=
    fun x member => inLeft x (sameLeft.mem_iff.mp member)
  have inRightDown : ∀ y ∈ rightDown, fromLeft y = false :=
    fun y member => inRight y (sameRight.mem_iff.mp member)
  have descending : leftDown.Pairwise fun first second => -value first < -value second := by
    rw [leftReversed, List.pairwise_reverse]
    exact ascending.imp fun less => neg_lt_neg less
  have up := @pairwise_merge_sides _ order _ _ _ inLeft inRight _ ascending
  have down := @pairwise_merge_sides _ (opposite order) _ _ _ inLeftDown inRightDown _ descending
  rw [reversed, List.pairwise_reverse] at down
  -- A pair stands in the merge in one order or in the other, and one of the facts is about it.
  let Told (y x : α) : Prop := fromLeft y = false → fromLeft x = true → order y x ≠ .eq
  have told : (merge order left right).Pairwise fun a b => Told a b ∧ Told b a := by
    refine (up.and down).imp ?_
    rintro a b ⟨behind, ahead⟩
    constructor
    · intro isRight isLeft
      obtain ⟨z, -, less, place⟩ := behind isRight isLeft
      exact scaled.untied_of_lt less place
    · intro isRight isLeft
      obtain ⟨z, -, less, place⟩ := ahead isRight isLeft
      have untied := scaled.opposite.untied_of_lt less place
      rwa [opposite, Ne, Ordering.swap_eq_eq] at untied
  have symmetric : Std.Symm fun a b => Told a b ∧ Told b a := ⟨fun _ _ both => both.symm⟩
  intro x memberLeft y memberRight
  have apart : y ≠ x := by
    rintro rfl
    exact Bool.false_ne_true ((inRight y memberRight).symm.trans (inLeft y memberLeft))
  have memberY := (merge_perm order left right).mem_iff.mpr (List.mem_append_right _ memberRight)
  have memberX := (merge_perm order left right).mem_iff.mpr (List.mem_append_left _ memberLeft)
  exact (told.forall memberY memberX apart).1 (inRight y memberRight) (inLeft x memberLeft)

end Halves

theorem untied_of_reverse (scaled : Scaled order value scale) {fuel : Nat}
    (enough : items.length ≤ fuel) (distinct : (items.map value).Nodup)
    (reversed : sortHalves (opposite order) fuel items = (sortHalves order fuel items).reverse) :
    items.Pairwise fun earlier later => order later earlier ≠ .eq := by
  induction fuel generalizing items with
  | zero =>
    obtain rfl := List.length_eq_zero_iff.mp (Nat.le_zero.mp enough)
    exact .nil
  | succ fuel ih =>
    simp only [sortHalves] at reversed
    split at reversed
    · rename_i short
      exact pairwise_of_length_le_one short
    · have enoughFront : (items.take (items.length / 2)).length ≤ fuel := by
        rw [List.length_take]
        omega
      have enoughBack : (items.drop (items.length / 2)).length ≤ fuel := by
        rw [List.length_drop]
        omega
      have halves := List.take_append_drop (items.length / 2) items
      generalize items.take (items.length / 2) = front at *
      generalize items.drop (items.length / 2) = back at *
      subst halves
      rw [List.map_append, List.nodup_append] at distinct
      obtain ⟨distinctFront, distinctBack, apart⟩ := distinct
      classical
      have inFront : ∀ x ∈ sortHalves order fuel front, decide (x ∈ front) = true :=
        fun x member => decide_eq_true ((sortHalves_perm order fuel front).mem_iff.mp member)
      have inBack : ∀ y ∈ sortHalves order fuel back, decide (y ∈ front) = false := by
        intro y member
        have known := (sortHalves_perm order fuel back).mem_iff.mp member
        exact decide_eq_false fun both => apart (value y) (List.mem_map_of_mem both) (value y)
          (List.mem_map_of_mem known) rfl
      have sameFront :
          (sortHalves (opposite order) fuel front).Perm (sortHalves order fuel front) :=
        (sortHalves_perm _ fuel front).trans (sortHalves_perm order fuel front).symm
      have sameBack : (sortHalves (opposite order) fuel back).Perm (sortHalves order fuel back) :=
        (sortHalves_perm _ fuel back).trans (sortHalves_perm order fuel back).symm
      -- The halves are reversed too, so the front half is in the order of its values, and what is
      -- left are pairs across the halves.
      obtain ⟨reversedFront, reversedBack⟩ :=
        reverse_of_merge inFront inBack sameFront sameBack reversed
      have untiedFront := ih enoughFront distinctFront reversedFront
      have ascending := pairwise_of_untied scaled enoughFront distinctFront untiedFront
      refine List.pairwise_append.mpr ⟨untiedFront, ih enoughBack distinctBack reversedBack, ?_⟩
      intro x memberFront y memberBack
      exact untied_of_merge inFront inBack sameFront sameBack reversed scaled ascending x
        ((sortHalves_perm order fuel front).mem_iff.mpr memberFront) y
        ((sortHalves_perm order fuel back).mem_iff.mpr memberBack)

/-- The other direction gives the reverse if and only if no element takes one before it for its
equal. -/
theorem mergeSort_opposite_iff (scaled : Scaled order value scale)
    (distinct : (items.map value).Nodup) :
    mergeSort (opposite order) items = (mergeSort order items).reverse ↔
      items.Pairwise fun earlier later => order later earlier ≠ .eq := by
  constructor
  · exact untied_of_reverse scaled (Nat.le_refl _) distinct
  · intro untied
    have ascending := pairwise_of_untied scaled (Nat.le_refl _) distinct untied
    have distinctDown : (items.map fun item => -value item).Nodup := by
      have negated := List.Nodup.map neg_injective distinct
      rwa [List.map_map] at negated
    have untiedDown : items.Pairwise fun earlier later => opposite order later earlier ≠ .eq := by
      refine untied.imp fun told => ?_
      rwa [opposite, Ne, Ordering.swap_eq_eq]
    have descending := pairwise_of_untied scaled.opposite (Nat.le_refl _) distinctDown untiedDown
    have same : (mergeSort (opposite order) items).Perm (mergeSort order items).reverse :=
      (mergeSort_perm _ items).trans
        ((mergeSort_perm order items).symm.trans (List.reverse_perm _).symm)
    refine same.eq_of_pairwise ?_ descending ?_
    · intro a b _ _ less more
      exact absurd less (lt_asymm more)
    · rw [List.pairwise_reverse]
      exact ascending.imp fun less => neg_lt_neg less

end Scales

end Sorting

namespace Cell

/-- The number that a cell holds, if it holds a finite one. -/
def number? : Cell → Option ℚ
  | int n => some n.toInt
  | float x => Decimal.value? x
  | _ => none

/-- The place of a cell on the scale of another one: the word that it is cut to for a word, and the
rank of the float that it is rounded to for a float. -/
def scale : Cell → Cell → Int
  | int _, right => (right.word?.map Int64.toInt).getD (-1)
  | _, right => (right.numeral?.map Decimal.Numeral.rank).getD (Decimal.rank (-1))

/-- Whether a cell takes another one, of another kind, for its equal. -/
def Takes : Cell → Cell → Prop
  | int n, float x => Decimal.toWord x = n
  | float x, int n => (Decimal.ofWord n).toBits = x.toBits
  | _, _ => False

instance : (left right : Cell) → Decidable (left.Takes right)
  | int n, float x => inferInstanceAs (Decidable (Decimal.toWord x = n))
  | float x, int n => inferInstanceAs (Decidable ((Decimal.ofWord n).toBits = x.toBits))
  | int _, int _ | int _, text _ | int _, set _ | int _, structured _ => .isFalse id
  | float _, float _ | float _, text _ | float _, set _ | float _, structured _ => .isFalse id
  | text _, _ | set _, _ | structured _, _ => .isFalse id

variable {left right lower upper : Cell} {p q : ℚ}

theorem order_eq_compare_scale (known : left.number? = some p) (right : Cell) :
    left.order right = compare (left.scale left) (left.scale right) := by
  cases left with
  | int n => rfl
  | float x => rfl
  | _ => cases known

theorem word?_of_number? (known : right.number? = some q) :
    right.word? = some (Decimal.nearestWord (Decimal.truncated q)) := by
  cases right with
  | int n =>
    cases known
    rw [Decimal.truncated_intCast, Decimal.nearestWord_toInt]
    rfl
  | float x => exact congrArg some (Decimal.toWord_eq known)
  | _ => cases known

theorem exists_ranksNext (known : right.number? = some q) :
    ∃ numeral, right.numeral? = some numeral ∧ Decimal.RanksNext q numeral.rank := by
  cases right with
  | int n =>
    cases known
    exact ⟨_, rfl, Decimal.ranksNext_ofWord n⟩
  | float x => exact ⟨_, rfl, Decimal.ranksNext_rank known⟩
  | _ => cases known

theorem scale_le_scale (left : Cell) (low : lower.number? = some p) (high : upper.number? = some q)
    (less : p < q) : left.scale lower ≤ left.scale upper := by
  have words :
      (lower.word?.map Int64.toInt).getD (-1) ≤ (upper.word?.map Int64.toInt).getD (-1) := by
    rw [word?_of_number? low, word?_of_number? high]
    exact Decimal.toInt_nearestWord_mono (Decimal.truncated_le_truncated less.le)
  have ranks : (lower.numeral?.map Decimal.Numeral.rank).getD (Decimal.rank (-1)) ≤
      (upper.numeral?.map Decimal.Numeral.rank).getD (Decimal.rank (-1)) := by
    obtain ⟨_, lowerKnown, lowerRank⟩ := exists_ranksNext low
    obtain ⟨_, upperKnown, upperRank⟩ := exists_ranksNext high
    rw [lowerKnown, upperKnown]
    exact lowerRank.le upperRank less
  cases left with
  | int n => exact words
  | _ => exact ranks

theorem order_eq_iff_takes (known : left.number? = some p) (other : right.number? = some q)
    (apart : p ≠ q) : left.order right = .eq ↔ left.Takes right := by
  cases left with
  | int m =>
    cases right with
    | int n =>
      cases known
      cases other
      have differs : m.toInt ≠ n.toInt := fun same => apart (congrArg Int.cast same)
      simp [order, word?, Takes, differs]
    | float x =>
      rw [Takes, ← Int64.toInt_inj]
      exact compare_eq_iff_eq.trans eq_comm
    | _ => cases other
  | float x =>
    cases right with
    | int n =>
      rw [Takes, ← Decimal.rank_inj]
      exact compare_eq_iff_eq.trans eq_comm
    | float y =>
      have differs : x.toBits ≠ y.toBits := by
        intro same
        have values : Decimal.value? x = Decimal.value? y := by
          rw [Decimal.value?, Decimal.value?, Decimal.parts, Decimal.parts, same]
        exact apart (Option.some.inj (known.symm.trans (values.trans other)))
      have ranks := mt Decimal.rank_inj.mp differs
      simp [order, numeral?, Decimal.Numeral.rank, Takes, ranks]
    | _ => cases other
  | _ => cases known

end Cell

namespace Sorting

variable {rows : List Row} {column : Nat}

theorem order_singleton (descends : Bool) (column : Nat) :
    order descends [column] = orderAt descends column := by
  funext left right
  exact Ordering.then_eq

def valueAt (column : Nat) (row : Row) : ℚ :=
  (keyCell column row).number?.getD 0

theorem number?_keyCell (numbers : ∀ row ∈ rows, (keyCell column row).number?.isSome) {row : Row}
    (member : row ∈ rows) : (keyCell column row).number? = some (valueAt column row) := by
  obtain ⟨q, known⟩ := Option.isSome_iff_exists.mp (numbers row member)
  rw [valueAt, known]
  rfl

theorem scaled_orderAt (numbers : ∀ row ∈ rows, (keyCell column row).number?.isSome) :
    Scaled (fun left right : { row // row ∈ rows } => orderAt false column left.1 right.1)
      (fun row => valueAt column row.1)
      (fun left right => (keyCell column left.1).scale (keyCell column right.1)) := by
  refine ⟨fun left right => ?_, fun left lower upper less => ?_⟩
  · exact Cell.order_eq_compare_scale (number?_keyCell numbers left.2) _
  · exact Cell.scale_le_scale _ (number?_keyCell numbers lower.2)
      (number?_keyCell numbers upper.2) less

theorem mergeSort_reverse_iff (numbers : ∀ row ∈ rows, (keyCell column row).number?.isSome)
    (distinct : (rows.map fun row => (keyCell column row).number?).Nodup) :
    mergeSort (order true [column]) rows = (mergeSort (order false [column]) rows).reverse ↔
      rows.Pairwise fun earlier later =>
        ¬ (keyCell column later).Takes (keyCell column earlier) := by
  -- Only the rows of the table are known to have a number, so they are sorted as members of it.
  have shown : (rows.attach.map fun row => valueAt column row.1).map some =
      rows.map fun row => (keyCell column row).number? := by
    conv_rhs => rw [← List.attach_map_subtype_val rows, List.map_map]
    rw [List.map_map]
    apply List.map_congr_left
    intro row _
    exact (number?_keyCell numbers row.2).symm
  have values : (rows.attach.map fun row => valueAt column row.1).Nodup :=
    List.Nodup.of_map some (shown ▸ distinct)
  have apart := List.pairwise_map.mp values
  have told (earlier later : { row // row ∈ rows })
      (differs : valueAt column earlier.1 ≠ valueAt column later.1) :
      orderAt false column later.1 earlier.1 ≠ .eq ↔
        ¬ (keyCell column later.1).Takes (keyCell column earlier.1) :=
    not_congr (Cell.order_eq_iff_takes (number?_keyCell numbers later.2)
      (number?_keyCell numbers earlier.2) differs.symm)
  have iff := mergeSort_opposite_iff (scaled_orderAt numbers) values
  rw [mergeSort_order_eq, mergeSort_order_eq, ← List.map_reverse,
    (List.map_injective_iff.mpr Subtype.val_injective).eq_iff, order_singleton, order_singleton]
  refine iff.trans ?_
  conv_rhs => rw [← List.attach_map_subtype_val rows, List.pairwise_map]
  constructor
  · intro untied
    exact (apart.and untied).imp fun both => (told _ _ both.1).mp both.2
  · intro untaken
    exact (apart.and untaken).imp fun both => (told _ _ both.1).mpr both.2

end Sorting

namespace Table

theorem keyCell_inferRow (column : Nat) (row : Row) :
    Sorting.keyCell column (Sorting.inferRow [column] row) =
      (Sorting.keyCell column row).reread := by
  rw [Sorting.keyCell, Sorting.rereadAt_inferRow [column] row column]
  unfold Sorting.keyCell
  cases row[column]? with
  | none => rfl
  | some cell => simp

/-- A table without types whose one key column holds numbers of different values is sorted in
descending order to the reverse of its ascending order if and only if no key takes the key of a row
in front of it for its equal: a word no number that is cut to it, and a number no word that is
rounded to it. So it is where the column holds words only, or other numbers only. -/
theorem sort_reverse_iff {table : Table} {keys : Range} {column : Nat}
    (untyped : table.typed = false)
    (single : ∀ first ∈ table.rows.head?, keys.positionsInBounds first.length = [column])
    (numbers : ∀ row ∈ table.rows, (Sorting.keyCell column row).reread.number?.isSome)
    (distinct : (table.rows.map fun row => (Sorting.keyCell column row).reread.number?).Nodup) :
    (table.sort ⟨keys, true⟩).rows = (table.sort ⟨keys, false⟩).rows.reverse ↔
      table.rows.Pairwise fun earlier later =>
        ¬ (Sorting.keyCell column later).reread.Takes (Sorting.keyCell column earlier).reread := by
  cases rows : table.rows with
  | nil =>
    have empty (descends : Bool) : (table.sort ⟨keys, descends⟩).rows = [] := by
      simp only [sort, rows]
    rw [empty, empty]
    simp
  | cons first more =>
    have columns (descends : Bool) : table.sortColumns ⟨keys, descends⟩ = [column] := by
      rw [sortColumns, width, rows]
      exact single first (by rw [rows]; rfl)
    have compared (descends : Bool) : table.comparedRows ⟨keys, descends⟩ =
        table.rows.map (Sorting.inferRow [column]) := by
      rw [comparedRows, untyped, columns]
      rfl
    have sorted (descends : Bool) : (table.sort ⟨keys, descends⟩).rows =
        Sorting.mergeSort (Sorting.order descends [column])
          (table.rows.map (Sorting.inferRow [column])) := by
      rw [sort_eq, columns, compared]
    rw [sorted, sorted, Sorting.mergeSort_reverse_iff, List.pairwise_map, rows]
    · simp only [keyCell_inferRow]
    · intro row member
      obtain ⟨before, known, rfl⟩ := List.mem_map.mp member
      rw [keyCell_inferRow]
      exact numbers before known
    · rw [List.map_map]
      simpa only [Function.comp_def, keyCell_inferRow] using distinct

/-- A number that is cut to a word behind that word, and a large word next to the float that it is
rounded to. -/
theorem sort_reverse_iff_mixed :
    let table : Table := { labels := [], rows := [[.text "a", .text "3"], [.text "b", .text "3.5"],
      [.text "c", .text "-2.5"], [.text "d", .text "9007199254740993"], [.text "e", .text "0.1"]] }
    let keys := Range.ofIndices [-1]
    table.typed = false ∧
    (∀ first ∈ table.rows.head?, keys.positionsInBounds first.length = [1]) ∧
    (∀ row ∈ table.rows, (Sorting.keyCell 1 row).reread.number?.isSome) ∧
    (table.rows.map fun row => (Sorting.keyCell 1 row).reread.number?).Nodup ∧
    (table.sort ⟨keys, true⟩).rows = (table.sort ⟨keys, false⟩).rows.reverse := by
  intro table keys
  have single : ∀ first ∈ table.rows.head?, keys.positionsInBounds first.length = [1] := by
    decide +kernel
  have numbers : ∀ row ∈ table.rows, (Sorting.keyCell 1 row).reread.number?.isSome := by
    decide +kernel
  have distinct : (table.rows.map fun row => (Sorting.keyCell 1 row).reread.number?).Nodup := by
    decide +kernel
  have untaken : table.rows.Pairwise fun earlier later =>
      ¬ (Sorting.keyCell 1 later).reread.Takes (Sorting.keyCell 1 earlier).reread := by
    decide +kernel
  exact ⟨rfl, single, numbers, distinct, (sort_reverse_iff rfl single numbers distinct).mpr untaken⟩

/-- A word behind a number that is cut to it stays there in both directions. -/
theorem sort_keeps_cut_number :
    let table : Table := { labels := [], rows := [[.text "3.5"], [.text "3"]] }
    let keys := Range.ofIndices [0]
    table.typed = false ∧
    (∀ first ∈ table.rows.head?, keys.positionsInBounds first.length = [0]) ∧
    (table.rows.map fun row => (Sorting.keyCell 0 row).reread.number?) = [some (7 / 2), some 3] ∧
    (∀ descends, (table.sort ⟨keys, descends⟩).rows.map (·.map Cell.render) = [["3.50"], ["3"]]) ∧
    (table.sort ⟨keys, true⟩).rows ≠ (table.sort ⟨keys, false⟩).rows.reverse := by
  intro table keys
  have shown : ∀ descends,
      (table.sort ⟨keys, descends⟩).rows.map (·.map Cell.render) = [["3.50"], ["3"]] := by
    decide +kernel
  refine ⟨rfl, by decide +kernel, by decide +kernel, shown, ?_⟩
  intro same
  have texts := congrArg (List.map (List.map Cell.render)) same
  rw [List.map_reverse, shown, shown] at texts
  exact absurd texts (by decide)

end Table

end Tabular
