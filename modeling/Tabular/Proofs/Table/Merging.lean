import Tabular.Table.Sort
import Mathlib.Data.List.TakeWhile

/-!
# Merging halves

However the elements compare, sorting by merging halves neither loses nor doubles one of them, and a
merge compares elements of the right half with elements of the left half only. If the comparison is
a total preorder, the result is sorted, and elements that compare equal keep their order.
-/

namespace Tabular

namespace Sorting

section Merging

variable {α β : Type} {order : α → α → Ordering}

theorem pairwise_of_length_le_one {related : α → α → Prop} {items : List α}
    (short : items.length ≤ 1) : items.Pairwise related := by
  match items, short with
  | [], _ => exact .nil
  | [item], _ => exact List.pairwise_singleton _ item

theorem merge_perm (order : α → α → Ordering) (left right : List α) :
    (merge order left right).Perm (left ++ right) := by
  rw [merge_eq]
  exact List.merge_perm_append _

theorem sortHalves_perm (order : α → α → Ordering) (fuel : Nat) (items : List α) :
    (sortHalves order fuel items).Perm items := by
  induction fuel generalizing items with
  | zero => exact .refl items
  | succ fuel ih =>
    rw [sortHalves]
    split
    · exact .refl items
    · refine (merge_perm order _ _).trans (((ih _).append (ih _)).trans ?_)
      rw [List.take_append_drop]

theorem mergeSort_perm (order : α → α → Ordering) (items : List α) :
    (mergeSort order items).Perm items :=
  sortHalves_perm order items.length items

theorem merge_map (order : α → α → Ordering) (f : β → α) (left right : List β) :
    merge order (left.map f) (right.map f) =
      (merge (fun x y => order (f x) (f y)) left right).map f := by
  simp only [merge_eq]
  exact (List.map_merge (f := f) fun _ _ _ _ => rfl).symm

theorem sortHalves_map (order : α → α → Ordering) (f : β → α) (fuel : Nat) (items : List β) :
    sortHalves order fuel (items.map f) =
      (sortHalves (fun x y => order (f x) (f y)) fuel items).map f := by
  induction fuel generalizing items with
  | zero => rfl
  | succ fuel ih =>
    simp only [sortHalves, List.length_map, ← List.map_take, ← List.map_drop, ih, merge_map]
    split <;> rfl

theorem mergeSort_map (order : α → α → Ordering) (f : β → α) (items : List β) :
    mergeSort order (items.map f) =
      (mergeSort (fun x y => order (f x) (f y)) items).map f := by
  unfold mergeSort
  rw [List.length_map, sortHalves_map]

section Comparisons

variable {other : α → α → Ordering}

theorem takeWhile_dropWhile_congr {p q : α → Bool} {items : List α}
    (same : ∀ item ∈ items, p item = q item) :
    items.takeWhile p = items.takeWhile q ∧ items.dropWhile p = items.dropWhile q := by
  induction items with
  | nil => exact ⟨rfl, rfl⟩
  | cons item items ih =>
    obtain ⟨here, others⟩ := List.forall_mem_cons.mp same
    obtain ⟨taken, dropped⟩ := ih others
    simp only [List.takeWhile_cons, List.dropWhile_cons, here, taken, dropped, and_self]

/-- Elements of the right list are compared with elements of the left list, and never the other way
round. -/
theorem merge_congr {left right : List α}
    (same : ∀ x ∈ left, ∀ y ∈ right, order y x = other y x) :
    merge order left right = merge other left right := by
  induction left generalizing right with
  | nil => rfl
  | cons x left ih =>
    obtain ⟨taken, dropped⟩ := @takeWhile_dropWhile_congr α (order · x == .lt) (other · x == .lt)
      right fun y member => by rw [same x List.mem_cons_self y member]
    have rest := ih fun z inLeft y inRight => same z (List.mem_cons_of_mem x inLeft) y
      ((List.dropWhile_sublist (other · x == .lt)).subset inRight)
    rw [merge, merge, taken, dropped, rest]

theorem sortHalves_congr {fuel : Nat} {items : List α}
    (same : items.Pairwise fun earlier later => order later earlier = other later earlier) :
    sortHalves order fuel items = sortHalves other fuel items := by
  induction fuel generalizing items with
  | zero => rfl
  | succ fuel ih =>
    have halves := same
    rw [← List.take_append_drop (items.length / 2) items, List.pairwise_append] at halves
    obtain ⟨front, back, across⟩ := halves
    simp only [sortHalves]
    split
    · rfl
    · rw [ih front, ih back]
      apply merge_congr
      intro x inFront y inBack
      exact across x ((sortHalves_perm other _ _).mem_iff.mp inFront) y
        ((sortHalves_perm other _ _).mem_iff.mp inBack)

end Comparisons

section Sides

variable {fromLeft : α → Bool} {left right : List α}
  (inLeft : ∀ x ∈ left, fromLeft x = true) (inRight : ∀ y ∈ right, fromLeft y = false)

include inLeft inRight

theorem filter_merge_left : (merge order left right).filter fromLeft = left := by
  induction left generalizing right with
  | nil => exact List.filter_eq_nil_iff.mpr fun y member => by simp [inRight y member]
  | cons x left ih =>
    have ahead : (right.takeWhile (order · x == .lt)).filter fromLeft = [] :=
      List.filter_eq_nil_iff.mpr fun y member => by
        simp [inRight y ((List.takeWhile_sublist _).subset member)]
    have behind := ih (fun z member => inLeft z (List.mem_cons_of_mem x member))
      fun y member => inRight y ((List.dropWhile_sublist (order · x == .lt)).subset member)
    rw [merge, List.filter_append, ahead, List.filter_cons, if_pos (inLeft x List.mem_cons_self),
      behind]
    rfl

theorem filter_merge_right : (merge order left right).filter (fun y => !fromLeft y) = right := by
  induction left generalizing right with
  | nil => exact List.filter_eq_self.mpr fun y member => by simp [inRight y member]
  | cons x left ih =>
    have ahead : (right.takeWhile (order · x == .lt)).filter (fun y => !fromLeft y) =
        right.takeWhile (order · x == .lt) :=
      List.filter_eq_self.mpr fun y member => by
        simp [inRight y ((List.takeWhile_sublist _).subset member)]
    have behind := ih (fun z member => inLeft z (List.mem_cons_of_mem x member))
      fun y member => inRight y ((List.dropWhile_sublist (order · x == .lt)).subset member)
    rw [merge, List.filter_append, ahead, List.filter_cons,
      if_neg (by simp [inLeft x List.mem_cons_self]), behind, List.takeWhile_append_dropWhile]

/-- Where an element of the right list comes before one of the left list, it was less than that one
or than another in front of it. -/
theorem pairwise_merge_sides {before : α → α → Prop} (ordered : left.Pairwise before) :
    (merge order left right).Pairwise fun y x => fromLeft y = false → fromLeft x = true →
      ∃ z ∈ left, order y z = .lt ∧ (z = x ∨ before z x) := by
  induction left generalizing right with
  | nil =>
    refine List.pairwise_of_forall_mem_list fun y _ x member _ isLeft => ?_
    rw [merge] at member
    rw [inRight x member] at isLeft
    cases isLeft
  | cons first left ih =>
    obtain ⟨least, ordered⟩ := List.pairwise_cons.mp ordered
    have behind := ih (fun z member => inLeft z (List.mem_cons_of_mem first member))
      (fun y member => inRight y ((List.dropWhile_sublist (order · first == .lt)).subset member))
      ordered
    have rest : ∀ x ∈ merge order left (right.dropWhile (order · first == .lt)),
        fromLeft x = true → x ∈ left := by
      intro x member isLeft
      obtain inside | outside := List.mem_append.mp ((merge_perm order _ _).mem_iff.mp member)
      · exact inside
      · rw [inRight x ((List.dropWhile_sublist _).subset outside)] at isLeft
        cases isLeft
    rw [merge, List.pairwise_append, List.pairwise_cons]
    refine ⟨?_, ⟨?_, ?_⟩, ?_⟩
    · -- What is taken ahead of `first` is all from the right list.
      refine List.pairwise_of_forall_mem_list fun y _ x member _ isLeft => ?_
      rw [inRight x ((List.takeWhile_sublist _).subset member)] at isLeft
      cases isLeft
    · intro x _ isRight
      rw [inLeft first List.mem_cons_self] at isRight
      cases isRight
    · refine behind.imp fun found isRight isLeft => ?_
      obtain ⟨z, member, less, place⟩ := found isRight isLeft
      exact ⟨z, List.mem_cons_of_mem first member, less, place⟩
    · intro y taken x member _ isLeft
      have less : order y first = .lt := by simpa using List.mem_takeWhile_imp taken
      refine ⟨first, List.mem_cons_self, less, ?_⟩
      obtain rfl | later := List.mem_cons.mp member
      · exact .inl rfl
      · exact .inr (least x (rest x later isLeft))

end Sides

section Preorder

variable [Std.TransCmp order]

theorem ne_lt_iff_isLE (x y : α) : (order y x != .lt) = (order x y).isLE := by
  have swap : order x y = (order y x).swap := Std.OrientedCmp.eq_swap
  rw [swap]
  cases order y x <;> rfl

theorem pairwise_merge {left right : List α}
    (sortedLeft : left.Pairwise fun x y => (order x y).isLE)
    (sortedRight : right.Pairwise fun x y => (order x y).isLE) :
    (merge order left right).Pairwise fun x y => (order x y).isLE := by
  simp only [merge_eq, ne_lt_iff_isLE]
  refine List.pairwise_merge (fun x y z => Std.TransCmp.isLE_trans) ?_ _ _ sortedLeft sortedRight
  intro x y
  have swap : order x y = (order y x).swap := Std.OrientedCmp.eq_swap
  rw [swap]
  cases order y x <;> rfl

theorem pairwise_sortHalves {fuel : Nat} {items : List α} (enough : items.length ≤ fuel) :
    (sortHalves order fuel items).Pairwise fun x y => (order x y).isLE := by
  induction fuel generalizing items with
  | zero =>
    obtain rfl := List.length_eq_zero_iff.mp (Nat.le_zero.mp enough)
    exact .nil
  | succ fuel ih =>
    rw [sortHalves]
    split
    · rename_i short
      exact pairwise_of_length_le_one short
    -- Both halves of a list of two or more are shorter than the list.
    · refine pairwise_merge (ih ?_) (ih ?_)
      · rw [List.length_take]
        omega
      · rw [List.length_drop]
        omega

theorem pairwise_mergeSort (items : List α) :
    (mergeSort order items).Pairwise fun x y => (order x y).isLE :=
  pairwise_sortHalves (Nat.le_refl _)

theorem filter_eq_nil_of_lt {item x y : α} {left : List α} (tie : order item y = .eq)
    (less : order y x = .lt) (least : ∀ z ∈ left, (order x z).isLE) :
    (x :: left).filter (order item · == .eq) = [] := by
  refine List.filter_eq_nil_iff.mpr fun z member => ?_
  have above : order item z = .lt := by
    rw [Std.TransCmp.congr_left tie]
    rcases List.mem_cons.mp member with rfl | member
    · exact less
    · exact Std.TransCmp.lt_of_lt_of_isLE less (least z member)
  simp [above]

/-- What is taken from the right list ahead of `x` is less than all that the left list still holds.
So if it compares equal to `item`, nothing there does. -/
theorem filter_merge (item : α) {left : List α} (right : List α)
    (sortedLeft : left.Pairwise fun x y => (order x y).isLE) :
    (merge order left right).filter (order item · == .eq) =
      left.filter (order item · == .eq) ++ right.filter (order item · == .eq) := by
  induction left generalizing right with
  | nil => rfl
  | cons x left ih =>
    obtain ⟨least, sortedLeft⟩ := List.pairwise_cons.mp sortedLeft
    have parts : right.filter (order item · == .eq) =
        (right.takeWhile (order · x == .lt)).filter (order item · == .eq) ++
          (right.dropWhile (order · x == .lt)).filter (order item · == .eq) := by
      rw [← List.filter_append, List.takeWhile_append_dropWhile]
    have rest : (x :: merge order left (right.dropWhile (order · x == .lt))).filter
          (order item · == .eq) =
        (x :: left).filter (order item · == .eq) ++
          (right.dropWhile (order · x == .lt)).filter (order item · == .eq) := by
      rw [List.filter_cons, List.filter_cons, ih _ sortedLeft]
      split <;> rfl
    rw [merge, List.filter_append, rest, parts]
    cases ahead : (right.takeWhile (order · x == .lt)).filter (order item · == .eq) with
    | nil => simp
    | cons y more =>
      obtain ⟨taken, tie⟩ := List.mem_filter.mp (ahead ▸ List.mem_cons_self)
      have less : order y x = .lt := by simpa using List.mem_takeWhile_imp taken
      rw [filter_eq_nil_of_lt (eq_of_beq tie) less least]
      rfl

theorem filter_sortHalves (item : α) {fuel : Nat} {items : List α}
    (enough : items.length ≤ fuel) :
    (sortHalves order fuel items).filter (order item · == .eq) =
      items.filter (order item · == .eq) := by
  induction fuel generalizing items with
  | zero => rfl
  | succ fuel ih =>
    rw [sortHalves]
    split
    · rfl
    · have half : (items.take (items.length / 2)).length ≤ fuel := by
        rw [List.length_take]
        omega
      have other : (items.drop (items.length / 2)).length ≤ fuel := by
        rw [List.length_drop]
        omega
      rw [filter_merge item _ (pairwise_sortHalves half), ih half, ih other,
        ← List.filter_append, List.take_append_drop]

theorem filter_mergeSort (item : α) (items : List α) :
    (mergeSort order items).filter (order item · == .eq) = items.filter (order item · == .eq) :=
  filter_sortHalves item (Nat.le_refl _)

end Preorder

end Merging

end Sorting

end Tabular
