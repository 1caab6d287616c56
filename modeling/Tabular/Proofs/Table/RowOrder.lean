import Tabular.Proofs.Table.SeparateGroups

/-!
# Groups and the order of the rows

Whole numbers that cannot leave the words have the same sum in every order, and texts that are no
numbers make up the same set. So where every column of every group holds the one or the other,
grouping does not depend on the order of the rows, but for the order of the groups and the order in
the sets.
-/

namespace Tabular

/-- The same cells, but for the order in a set. -/
inductive Cell.Alike : Cell → Cell → Prop
  | refl (cell : Cell) : Alike cell cell
  | set {left right : TextSet} : left.toList.Perm right.toList → Alike (.set left) (.set right)

namespace TextSet

theorem perm_ofList {left right : List String} (permuted : left.Perm right) :
    (ofList left).toList.Perm (ofList right).toList := by
  rw [List.perm_ext_iff_of_nodup (ofList left).nodup (ofList right).nodup]
  intro text
  rw [mem_ofList, mem_ofList, permuted.mem_iff]

end TextSet

namespace Total

/-- What comes together of some texts. -/
def ofTexts (texts : List String) : Total :=
  texts.foldl add .empty

def wholeValue (text : String) : Int :=
  ((Decimal.readWord? text.toList).map Int64.toInt).getD 0

theorem exists_wholeValue_eq {text : String} (word : (Decimal.readWord? text.toList).isSome) :
    ∃ n, Decimal.readWord? text.toList = some n ∧ wholeValue text = n.toInt := by
  obtain ⟨n, read⟩ := Option.isSome_iff_exists.mp word
  refine ⟨n, read, ?_⟩
  rw [wholeValue, read]
  rfl

/-- Words in decimal whose magnitudes together still are a word. -/
def Summable (texts : List String) : Prop :=
  (∀ text ∈ texts, (Decimal.readWord? text.toList).isSome) ∧
    (texts.map fun text => (wholeValue text).natAbs).sum < 2 ^ 63

/-- Texts that come together in the same way in every order. -/
def Uniform (texts : List String) : Prop :=
  Summable texts ∨ ∀ text ∈ texts, (Cell.infer text).isNumber = false

instance (texts : List String) : Decidable (Summable texts) :=
  inferInstanceAs (Decidable (_ ∧ _))

instance (texts : List String) : Decidable (Uniform texts) :=
  inferInstanceAs (Decidable (_ ∨ _))

theorem add_int {sum n : Int64} {text : String} (read : Decimal.readWord? text.toList = some n)
    (bounded : (sum.toInt + n.toInt).natAbs < 2 ^ 63) :
    (int sum).add text = int (.ofInt (sum.toInt + n.toInt)) := by
  have total : Decimal.addWords? sum n = some (.ofInt (sum.toInt + n.toInt)) := by
    rw [Decimal.addWords?, Decimal.word?, if_pos (by omega)]
  simp only [add, read, addWord, total]

/-- No sum on the way leaves the words, since the magnitudes together do not. -/
theorem foldl_add_int {sum : Int64} {texts : List String}
    (words : ∀ text ∈ texts, (Decimal.readWord? text.toList).isSome)
    (bounded : sum.toInt.natAbs + (texts.map fun text => (wholeValue text).natAbs).sum < 2 ^ 63) :
    texts.foldl add (int sum) = int (.ofInt (sum.toInt + (texts.map wholeValue).sum)) := by
  induction texts generalizing sum with
  | nil => simp
  | cons text texts ih =>
    obtain ⟨word, words⟩ := List.forall_mem_cons.mp words
    obtain ⟨n, read, value⟩ := exists_wholeValue_eq word
    rw [List.map_cons, List.sum_cons, value] at bounded
    have inside : (sum.toInt + n.toInt).natAbs < 2 ^ 63 := by omega
    have next : (Int64.ofInt (sum.toInt + n.toInt)).toInt = sum.toInt + n.toInt :=
      Int64.toInt_ofInt_of_le (by omega) (by omega)
    rw [List.foldl_cons, add_int read inside, ih words (by rw [next]; omega), next, List.map_cons,
      List.sum_cons, value, add_assoc]

theorem ofTexts_of_summable {texts : List String} (filled : texts ≠ [])
    (summable : Summable texts) :
    ofTexts texts = int (.ofInt (texts.map wholeValue).sum) := by
  obtain ⟨first, rest, rfl⟩ := List.exists_cons_of_ne_nil filled
  obtain ⟨words, bounded⟩ := summable
  obtain ⟨word, words⟩ := List.forall_mem_cons.mp words
  obtain ⟨n, read, value⟩ := exists_wholeValue_eq word
  have opened : ofText first = int n := by rw [ofText, Cell.infer, read]
  rw [List.map_cons, List.sum_cons, value] at bounded
  rw [ofTexts, List.foldl_cons, add, opened, foldl_add_int words bounded, List.map_cons,
    List.sum_cons, value]

theorem ofText_of_not_isNumber {text : String} (word : (Cell.infer text).isNumber = false) :
    ofText text = set (TextSet.ofList [text]) := by
  unfold ofText
  cases inferred : Cell.infer text with
  | int | float => simp [inferred, Cell.isNumber] at word
  | text | set | structured => rfl

theorem foldl_add_set (texts : List String) (collected : TextSet) :
    texts.foldl add (set collected) = set (texts.foldl TextSet.insert collected) := by
  induction texts generalizing collected with
  | nil => rfl
  | cons text texts ih => exact ih (collected.insert text)

theorem ofTexts_of_not_isNumber {texts : List String} (filled : texts ≠ [])
    (words : ∀ text ∈ texts, (Cell.infer text).isNumber = false) :
    ofTexts texts = set (TextSet.ofList texts) := by
  obtain ⟨first, rest, rfl⟩ := List.exists_cons_of_ne_nil filled
  rw [ofTexts, List.foldl_cons, add, ofText_of_not_isNumber (words first List.mem_cons_self),
    foldl_add_set]
  rfl

theorem alike_ofTexts {left right : List String} (permuted : left.Perm right)
    (uniform : Uniform left) : (ofTexts left).toCell.Alike (ofTexts right).toCell := by
  by_cases filled : left = []
  · subst filled
    rw [permuted.nil_eq]
    exact .refl _
  · have filledRight : right ≠ [] := fun none => filled (none ▸ permuted).eq_nil
    rcases uniform with ⟨words, bounded⟩ | noNumbers
    · have magnitudes := (permuted.map fun text => (wholeValue text).natAbs).sum_eq
      have summable : Summable right :=
        ⟨fun text member => words text (permuted.mem_iff.mpr member), magnitudes ▸ bounded⟩
      rw [ofTexts_of_summable filled ⟨words, bounded⟩, ofTexts_of_summable filledRight summable,
        (permuted.map wholeValue).sum_eq]
      exact .refl _
    · rw [ofTexts_of_not_isNumber filled noNumbers, ofTexts_of_not_isNumber filledRight
        fun text member => noNumbers text (permuted.mem_iff.mpr member)]
      exact .set (TextSet.perm_ofList permuted)

end Total

theorem Keyed.perm_eraseDups {κ : Type} [DecidableEq κ] {left right : List κ}
    (permuted : left.Perm right) : left.eraseDups.Perm right.eraseDups := by
  rw [List.perm_ext_iff_of_nodup (nodup_eraseDups left) (nodup_eraseDups right)]
  intro item
  rw [List.mem_eraseDups, List.mem_eraseDups, permuted.mem_iff]

namespace Group

theorem columnTotal_eq_ofTexts (rows : List Row) (column : Nat) :
    columnTotal rows column = Total.ofTexts (rows.map (textAt · column)) := by
  rw [Total.ofTexts, List.foldl_map]
  rfl

theorem alike_columnTotal {left right : List Row} (permuted : left.Perm right) {column : Nat}
    (uniform : Total.Uniform (left.map (textAt · column))) :
    (columnTotal left column).toCell.Alike (columnTotal right column).toCell := by
  rw [columnTotal_eq_ofTexts, columnTotal_eq_ofTexts]
  exact Total.alike_ofTexts (permuted.map _) uniform

/-- Rows of one key in two orders give the same row, but for the order in its sets. -/
theorem alike_row_ofRows {grouping : Grouping} (plain : grouping.folds = false) (joiner : String)
    {keys values : List Nat} {left right : List Row} (permuted : left.Perm right)
    (same : ∀ row ∈ left, ∀ other ∈ left, texts row keys = texts other keys)
    (uniform : ∀ column ∈ values, Total.Uniform (left.map (textAt · column))) :
    List.Forall₂ Cell.Alike ((ofRows keys values left).row grouping joiner)
      ((ofRows keys values right).row grouping joiner) := by
  have heads : left.head?.map (texts · keys) = right.head?.map (texts · keys) := by
    cases left with
    | nil => rw [permuted.nil_eq]
    | cons first rest =>
      cases right with
      | nil => exact absurd permuted.eq_nil (List.cons_ne_nil _ _)
      | cons other more =>
        have member : other ∈ first :: rest := permuted.mem_iff.mpr List.mem_cons_self
        exact congrArg some (same first List.mem_cons_self other member)
  have totals : List.Forall₂ Cell.Alike (values.map fun column => (columnTotal left column).toCell)
      (values.map fun column => (columnTotal right column).toCell) := by
    rw [List.forall₂_map_left_iff, List.forall₂_map_right_iff, List.forall₂_same]
    exact fun column member => alike_columnTotal permuted (uniform column member)
  have equal (cells : List Cell) : List.Forall₂ Cell.Alike cells cells :=
    List.forall₂_same.mpr fun cell _ => .refl cell
  rw [ofRows_eq, ofRows_eq, heads, permuted.length_eq]
  simp only [row, plain, Bool.false_eq_true, if_false, List.map_map]
  exact List.rel_append (List.rel_append (equal _) totals) (equal _)

end Group

namespace Table

variable {grouping : Grouping} {table : Table} {rows : List Row}

def withRows (table : Table) (rows : List Row) : Table :=
  { table with rows }

theorem width_withRows (wide : ∀ row ∈ table.rows, row.length = table.width)
    (permuted : table.rows.Perm rows) : (table.withRows rows).width = table.width := by
  cases rows with
  | nil => rw [width, width, permuted.eq_nil, withRows]
  | cons first rest => exact wide first (permuted.mem_iff.mpr List.mem_cons_self)

section

variable (wide : ∀ row ∈ table.rows, row.length = table.width) (permuted : table.rows.Perm rows)
include wide permuted

theorem groupKeys_withRows (grouping : Grouping) :
    (table.withRows rows).groupKeys grouping = table.groupKeys grouping :=
  congrArg grouping.keys.positionsInBounds (width_withRows wide permuted)

theorem groupValues_withRows (grouping : Grouping) :
    (table.withRows rows).groupValues grouping = table.groupValues grouping := by
  rw [groupValues, groupValues, groupKeys_withRows wide permuted, width_withRows wide permuted]

theorem joinedKeys_withRows_perm (grouping : Grouping) :
    (table.joinedKeys grouping).Perm ((table.withRows rows).joinedKeys grouping) := by
  rw [joinedKeys, joinedKeys, groupKeys_withRows wide permuted]
  exact Keyed.perm_eraseDups (permuted.map _)

theorem rows_onlyKey_withRows_perm (grouping : Grouping) (key : String) :
    (table.onlyKey grouping key).rows.Perm ((table.withRows rows).onlyKey grouping key).rows := by
  rw [onlyKey, onlyKey, groupKeys_withRows wide permuted]
  exact permuted.filter _

theorem group_withRows (grouping : Grouping) (joiner : String) :
    (table.withRows rows).group grouping joiner =
      (table.group grouping joiner).withRows
        ((table.withRows rows).group grouping joiner).rows := by
  have same := width_withRows wide permuted
  obtain ⟨labels, old, keyCount, typed, explicitLabels⟩ := table
  cases old with
  | nil =>
    obtain rfl := permuted.nil_eq
    rfl
  | cons first rest =>
    cases rows with
    | nil => exact absurd permuted.eq_nil (List.cons_ne_nil _ _)
    | cons other more =>
      simp only [width, withRows, List.head?_cons, Option.map_some, Option.getD_some] at same
      simp only [withRows, group, same]
      rfl

end

/-- Grouping does not depend on the order of the rows where numbers and texts do not mix: every
column of a group that is no key holds either whole numbers whose magnitudes together are a word, or
only texts that are no numbers. Then the rows in any other order give the same groups in another
order, with the same key texts, sums and counts, and with the same texts in their sets. -/
theorem group_withRows_perm (plain : grouping.folds = false)
    (wide : ∀ row ∈ table.rows, row.length = table.width)
    (separate : ∀ row ∈ table.rows, ∀ other ∈ table.rows,
      Group.joinedKey (table.groupKeys grouping) row =
        Group.joinedKey (table.groupKeys grouping) other →
      Group.texts row (table.groupKeys grouping) = Group.texts other (table.groupKeys grouping))
    (uniform : ∀ key ∈ table.joinedKeys grouping, ∀ column ∈ table.groupValues grouping,
      Total.Uniform ((table.onlyKey grouping key).rows.map (Group.textAt · column)))
    (permuted : table.rows.Perm rows) (joiner : String) :
    ∃ grouped,
      (table.withRows rows).group grouping joiner =
        (table.group grouping joiner).withRows grouped ∧
      ∃ arranged, grouped.Perm arranged ∧
        List.Forall₂ (List.Forall₂ Cell.Alike) (table.group grouping joiner).rows arranged := by
  refine ⟨_, group_withRows wide permuted grouping joiner,
    (table.joinedKeys grouping).map fun key =>
      (Group.ofRows (table.groupKeys grouping) (table.groupValues grouping)
        ((table.withRows rows).onlyKey grouping key).rows).row grouping joiner, ?_, ?_⟩
  · rw [rows_group_eq_map_joinedKeys, groupKeys_withRows wide permuted,
      groupValues_withRows wide permuted]
    exact (joinedKeys_withRows_perm wide permuted grouping).symm.map _
  · rw [rows_group_eq_map_joinedKeys, List.forall₂_map_left_iff, List.forall₂_map_right_iff,
      List.forall₂_same]
    intro key known
    have same := rows_onlyKey_withRows_perm wide permuted grouping key
    refine Group.alike_row_ofRows plain joiner same ?_ (uniform key known)
    intro row member other otherMember
    apply separate row (List.mem_of_mem_filter member) other (List.mem_of_mem_filter otherMember)
    rw [joinedKey_of_mem_onlyKey member, joinedKey_of_mem_onlyKey otherMember]

/-- Sums that end just inside the words, with a sign, a number and its text, and a set that is not
in the order of its texts. -/
theorem group_withRows_perm_reversed :
    let grouping : Grouping := { keys := .ofIndices [1], counts := true }
    let table : Table := { labels := ["n", "k", "t"], rows := [
      [.text "9223372036854775800", .text "a", .text "x"], [.int 3, .text "b", .text ""],
      [.text "+7", .text "a", .text "inf"], [.text "-4", .text "b", .text "y"]] }
    let rows : List Row := [
      [.text "-4", .text "b", .text "y"], [.text "+7", .text "a", .text "inf"],
      [.int 3, .text "b", .text ""], [.text "9223372036854775800", .text "a", .text "x"]]
    grouping.folds = false ∧ (∀ row ∈ table.rows, row.length = table.width) ∧
    (∀ row ∈ table.rows, ∀ other ∈ table.rows,
      Group.joinedKey (table.groupKeys grouping) row =
        Group.joinedKey (table.groupKeys grouping) other →
      Group.texts row (table.groupKeys grouping) = Group.texts other (table.groupKeys grouping)) ∧
    (∀ key ∈ table.joinedKeys grouping, ∀ column ∈ table.groupValues grouping,
      Total.Uniform ((table.onlyKey grouping key).rows.map (Group.textAt · column))) ∧
    table.rows.Perm rows ∧
    ∃ grouped,
      (table.withRows rows).group grouping "," =
        (table.group grouping ",").withRows grouped ∧
      ∃ arranged, grouped.Perm arranged ∧
        List.Forall₂ (List.Forall₂ Cell.Alike) (table.group grouping ",").rows arranged := by
  intro grouping table rows
  have wide : ∀ row ∈ table.rows, row.length = table.width := by decide
  have separate : ∀ row ∈ table.rows, ∀ other ∈ table.rows,
      Group.joinedKey (table.groupKeys grouping) row =
        Group.joinedKey (table.groupKeys grouping) other →
      Group.texts row (table.groupKeys grouping) =
        Group.texts other (table.groupKeys grouping) := by
    decide +kernel
  have uniform : ∀ key ∈ table.joinedKeys grouping, ∀ column ∈ table.groupValues grouping,
      Total.Uniform ((table.onlyKey grouping key).rows.map (Group.textAt · column)) := by
    decide +kernel
  have permuted : table.rows.Perm rows := (List.reverse_perm table.rows).symm
  exact ⟨rfl, wide, separate, uniform, permuted,
    group_withRows_perm rfl wide separate uniform permuted ","⟩

end Table

end Tabular
