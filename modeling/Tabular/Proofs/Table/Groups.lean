import Tabular.Proofs.Keyed
import Tabular.Table.Group
import Mathlib.Data.List.Infix

/-!
# Groups by key texts

Rows are grouped by their key texts joined with a separator. Where the separator does not begin in a
key text that another one follows, joined texts fall apart in one way only, and then the groups are
those of the key texts themselves. Elsewhere different keys can be joined to the same text.
-/

namespace Tabular

section Joining

variable {α : Type} {separator : List α}

theorem eq_nil_of_append_separator {before piece x y : List α}
    (clear : ¬separator <:+: (before ++ piece) ++ separator.dropLast)
    (same : separator ++ x = piece ++ (separator ++ y)) : piece = [] := by
  by_contra filled
  refine clear ?_
  have whole : piece ++ separator.dropLast <+: piece ++ (separator ++ y) :=
    (List.prefix_append_right_inj piece).mpr
      ((List.dropLast_prefix separator).trans (List.prefix_append separator y))
  have long : separator.length ≤ (piece ++ separator.dropLast).length := by
    have := List.length_pos_iff.mpr filled
    simp only [List.length_append, List.length_dropLast]
    omega
  have front : separator <+: piece ++ separator.dropLast :=
    List.prefix_of_prefix_length_le ⟨x, same⟩ whole long
  rw [List.append_assoc]
  exact front.isInfix.trans (List.suffix_append before _).isInfix

/-- A piece in which the separator does not begin ends at the first separator. -/
theorem append_separator_inj {first second x y : List α}
    (clearFirst : ¬separator <:+: first ++ separator.dropLast)
    (clearSecond : ¬separator <:+: second ++ separator.dropLast)
    (same : first ++ (separator ++ x) = second ++ (separator ++ y)) : first = second ∧ x = y := by
  rcases List.append_eq_append_iff.mp same with ⟨piece, rfl, rest⟩ | ⟨piece, rfl, rest⟩
  · obtain rfl := eq_nil_of_append_separator clearSecond rest
    exact ⟨(List.append_nil first).symm, List.append_cancel_left rest⟩
  · obtain rfl := eq_nil_of_append_separator clearFirst rest
    exact ⟨List.append_nil second, (List.append_cancel_left rest).symm⟩

theorem intercalate_inj {first second : List (List α)} (length : first.length = second.length)
    (clearFirst : ∀ piece ∈ first.dropLast, ¬separator <:+: piece ++ separator.dropLast)
    (clearSecond : ∀ piece ∈ second.dropLast, ¬separator <:+: piece ++ separator.dropLast)
    (same : separator.intercalate first = separator.intercalate second) : first = second := by
  induction first generalizing second with
  | nil => exact (List.length_eq_zero_iff.mp length.symm).symm
  | cons a first ih =>
    obtain ⟨b, second, rfl⟩ := List.exists_cons_of_length_eq_add_one length.symm
    have shorter : first.length = second.length := Nat.succ_inj.mp length
    cases first with
    | nil =>
      obtain rfl := List.length_eq_zero_iff.mp shorter.symm
      rw [List.intercalate_singleton, List.intercalate_singleton] at same
      rw [same]
    | cons a' first =>
      obtain ⟨b', second, rfl⟩ := List.exists_cons_of_length_eq_add_one shorter.symm
      rw [List.dropLast_cons_cons] at clearFirst clearSecond
      rw [List.intercalate_cons_cons, List.intercalate_cons_cons, List.append_assoc,
        List.append_assoc] at same
      obtain ⟨rfl, rest⟩ := append_separator_inj (clearFirst a List.mem_cons_self)
        (clearSecond b List.mem_cons_self) same
      rw [ih shorter (fun piece member => clearFirst piece (List.mem_cons_of_mem _ member))
        (fun piece member => clearSecond piece (List.mem_cons_of_mem _ member)) rest]

end Joining

theorem Keyed.eraseDups_map {κ β : Type} [BEq κ] [LawfulBEq κ] [BEq β] [LawfulBEq β] {f : κ → β}
    {items : List κ} (inj : ∀ a ∈ items, ∀ b ∈ items, f a = f b → a = b) :
    (items.map f).eraseDups = items.eraseDups.map f := by
  match items with
  | [] => rfl
  | item :: items =>
    have others : (items.map f).filter (fun b => !b == f item) =
        (items.filter fun a => !a == item).map f := by
      rw [List.filter_map]
      refine congrArg (List.map f) (List.filter_congr fun other member => ?_)
      by_cases same : other = item
      · simp [same]
      · have apart : f other ≠ f item := fun image =>
          same (inj other (List.mem_cons_of_mem _ member) item List.mem_cons_self image)
        simp [same, apart]
    rw [List.map_cons, List.eraseDups_cons, List.eraseDups_cons, List.map_cons, others,
      Keyed.eraseDups_map]
    intro a memberA b memberB
    exact inj a (List.mem_cons_of_mem _ (List.mem_of_mem_filter memberA)) b
      (List.mem_cons_of_mem _ (List.mem_of_mem_filter memberB))
termination_by items.length
decreasing_by
  have := List.length_filter_le (fun a => !a == item) items
  simp only [List.length_cons]
  omega

namespace Group

/-- The separator does not begin in the text, not even with its last character behind it. -/
def Clear (text : String) : Prop :=
  ¬keySeparator.toList <:+: text.toList ++ keySeparator.toList.dropLast

instance (text : String) : Decidable (Clear text) :=
  inferInstanceAs (Decidable (¬_))

def joinedKey (keys : List Nat) (row : Row) : String :=
  keySeparator.intercalate (texts row keys)

/-- The group of some rows, which are taken in one after the other. It has the key texts of the
first one. -/
def ofRows (keys values : List Nat) (rows : List Row) : Group :=
  rows.foldl (fun group row => group.add (texts row values))
    (start ((rows.head?.map (texts · keys)).getD []) values.length)

theorem ofRows_concat {keys values : List Nat} {rows : List Row} (filled : rows ≠ []) (row : Row) :
    ofRows keys values (rows ++ [row]) = (ofRows keys values rows).add (texts row values) := by
  obtain ⟨first, rest, rfl⟩ := List.exists_cons_of_ne_nil filled
  simp [ofRows, List.foldl_append]

def textAt (row : Row) (column : Nat) : String :=
  (row[column]?.map Cell.render).getD ""

def columnTotal (rows : List Row) (column : Nat) : Total :=
  rows.foldl (fun total row => total.add (textAt row column)) .empty

theorem columnTotal_singleton (row : Row) (column : Nat) :
    columnTotal [row] column = .ofText (textAt row column) :=
  rfl

theorem foldl_add_eq {values : List Nat} {group : Group} {totals : Nat → Total}
    (columns : group.totals = values.map totals) (rows : List Row) :
    rows.foldl (fun group row => group.add (texts row values)) group =
      ⟨group.keys,
        values.map fun column =>
          rows.foldl (fun total row => total.add (textAt row column)) (totals column),
        group.count + rows.length⟩ := by
  induction rows generalizing group totals with
  | nil =>
    obtain ⟨keys, _, count⟩ := group
    exact congrArg (fun totals => Group.mk keys totals count) columns
  | cons row rows ih =>
    have step : (group.add (texts row values)).totals =
        values.map fun column => (totals column).add (textAt row column) := by
      change List.zipWith Total.add group.totals (values.map (textAt row)) = _
      rw [columns, List.zipWith_map, List.zipWith_self]
    rw [List.foldl_cons, ih step, List.length_cons]
    simp only [add, List.foldl_cons, Nat.add_assoc, Nat.add_comm 1]

theorem ofRows_eq (keys values : List Nat) (rows : List Row) :
    ofRows keys values rows =
      ⟨(rows.head?.map (texts · keys)).getD [], values.map (columnTotal rows), rows.length⟩ := by
  have fresh : (start ((rows.head?.map (texts · keys)).getD []) values.length).totals =
      values.map fun _ => Total.empty := by
    simp [start]
  rw [ofRows, foldl_add_eq fresh]
  simp only [start, Nat.zero_add]
  rfl

/-- Each joined key has one group, that of all its rows. -/
theorem collect_eq (keys values : List Nat) (rows : List Row) :
    collect keys values rows =
      (rows.map (joinedKey keys)).eraseDups.map fun key =>
        (key, ofRows keys values (rows.filter (joinedKey keys · = key))) :=
  @Keyed.foldl_update_eq_map _ _ _ _ (joinedKey keys)
    (fun row => start (texts row keys) values.length)
    (fun row group => group.add (texts row values)) (ofRows keys values)
    (fun _ => rfl) (fun _ row filled => ofRows_concat filled row) rows

/-- Rows with different key texts have different joined keys, if the separator begins in none of
the texts that another one follows. -/
theorem texts_eq_of_joinedKey_eq {keys : List Nat} {left right : Row}
    (clearLeft : ∀ text ∈ (texts left keys).dropLast, Clear text)
    (clearRight : ∀ text ∈ (texts right keys).dropLast, Clear text)
    (same : joinedKey keys left = joinedKey keys right) : texts left keys = texts right keys := by
  have pieces {row : Row} (clear : ∀ text ∈ (texts row keys).dropLast, Clear text) :
      ∀ piece ∈ ((texts row keys).map String.toList).dropLast,
        ¬keySeparator.toList <:+: piece ++ keySeparator.toList.dropLast := by
    intro piece member
    rw [← List.map_dropLast] at member
    obtain ⟨text, known, rfl⟩ := List.mem_map.mp member
    exact clear text known
  have joined : keySeparator.toList.intercalate ((texts left keys).map String.toList) =
      keySeparator.toList.intercalate ((texts right keys).map String.toList) := by
    rw [← String.toList_intercalate, ← String.toList_intercalate]
    exact congrArg String.toList same
  have length : ((texts left keys).map String.toList).length =
      ((texts right keys).map String.toList).length := by
    simp [texts]
  exact List.map_injective_iff.mpr (fun _ _ => String.toList_inj.mp)
    (intercalate_inj length (pieces clearLeft) (pieces clearRight) joined)

end Group

namespace Table

/-- The key columns, among those of the first row. -/
def groupKeys (grouping : Grouping) (table : Table) : List Nat :=
  grouping.keys.positionsInBounds table.width

def groupValues (grouping : Grouping) (table : Table) : List Nat :=
  (List.range table.width).filter fun column => !(table.groupKeys grouping).contains column

theorem rows_group (grouping : Grouping) (joiner : String) (table : Table) :
    (table.group grouping joiner).rows =
      (Group.collect (table.groupKeys grouping) (table.groupValues grouping) table.rows).map
        fun (_, group) => group.row grouping joiner := by
  obtain ⟨labels, rows, keyCount, typed, explicitLabels⟩ := table
  cases rows with
  | nil => rfl
  | cons first rows => rfl

/-- Grouping gives one row for each list of key texts, in the order in which these come first, and
that row is made of exactly the rows with these key texts, if the separator of keys begins in no key
text that another one follows. -/
theorem group_eq_map_keyTexts {grouping : Grouping} {table : Table}
    (clear : ∀ row ∈ table.rows,
      ∀ text ∈ (Group.texts row (table.groupKeys grouping)).dropLast, Group.Clear text)
    (joiner : String) :
    (table.group grouping joiner).rows =
      (table.rows.map (Group.texts · (table.groupKeys grouping))).eraseDups.map fun key =>
        (Group.ofRows (table.groupKeys grouping) (table.groupValues grouping)
          (table.rows.filter (Group.texts · (table.groupKeys grouping) = key))).row
            grouping joiner := by
  have apart {left right : Row} (memberLeft : left ∈ table.rows) (memberRight : right ∈ table.rows)
      (same : Group.joinedKey (table.groupKeys grouping) left =
        Group.joinedKey (table.groupKeys grouping) right) :
      Group.texts left (table.groupKeys grouping) = Group.texts right (table.groupKeys grouping) :=
    Group.texts_eq_of_joinedKey_eq (clear left memberLeft) (clear right memberRight) same
  have joined : table.rows.map (Group.joinedKey (table.groupKeys grouping)) =
      (table.rows.map (Group.texts · (table.groupKeys grouping))).map
        (Group.keySeparator.intercalate ·) := by
    rw [List.map_map]
    rfl
  rw [rows_group, Group.collect_eq, joined, Keyed.eraseDups_map, List.map_map, List.map_map]
  · refine List.map_congr_left fun key known => ?_
    obtain ⟨row, member, rfl⟩ := List.mem_map.mp (List.mem_eraseDups.mp known)
    have rows : table.rows.filter (Group.joinedKey (table.groupKeys grouping) · =
          Group.joinedKey (table.groupKeys grouping) row) =
        table.rows.filter (Group.texts · (table.groupKeys grouping) =
          Group.texts row (table.groupKeys grouping)) := by
      refine List.filter_congr fun other known => ?_
      refine decide_eq_decide.mpr ⟨apart known member, fun same => ?_⟩
      rw [Group.joinedKey, same, Group.joinedKey]
    exact congrArg (fun rows => (Group.ofRows _ _ rows).row grouping joiner) rows
  · intro first memberFirst second memberSecond same
    obtain ⟨left, memberLeft, rfl⟩ := List.mem_map.mp memberFirst
    obtain ⟨right, memberRight, rfl⟩ := List.mem_map.mp memberSecond
    exact apart memberLeft memberRight same

/-- The separator inside the last key text of a row, and a number with the text of another cell. -/
theorem group_eq_map_keyTexts_separator :
    let grouping : Grouping := { keys := .ofIndices [0, 1] }
    let table : Table := { labels := [], rows := [[.text "x:=", .text "==:y", .int 1],
      [.int 1, .text ":==:", .text "u"], [.text "x:=", .text "==:y", .int 2],
      [.text "1", .text ":==:"]] }
    (∀ row ∈ table.rows,
      ∀ text ∈ (Group.texts row (table.groupKeys grouping)).dropLast, Group.Clear text) ∧
    (table.group grouping ",").rows =
      (table.rows.map (Group.texts · (table.groupKeys grouping))).eraseDups.map fun key =>
        (Group.ofRows (table.groupKeys grouping) (table.groupValues grouping)
          (table.rows.filter (Group.texts · (table.groupKeys grouping) = key))).row
            grouping "," := by
  intro grouping table
  have clear : ∀ row ∈ table.rows,
      ∀ text ∈ (Group.texts row (table.groupKeys grouping)).dropLast, Group.Clear text := by
    decide +kernel
  exact ⟨clear, group_eq_map_keyTexts clear ","⟩

/-- Rows with different key texts in one group: the separator stands inside a key text that another
one follows. -/
theorem group_joins_different_keys :
    let grouping : Grouping := { keys := .ofIndices [0, 1] }
    let left : Row := [.text "a:==:b", .text "c", .text "1"]
    let right : Row := [.text "a", .text "b:==:c", .text "2"]
    let table : Table := { labels := [], rows := [left, right] }
    Group.texts left (table.groupKeys grouping) ≠ Group.texts right (table.groupKeys grouping) ∧
    (table.group grouping ",").rows.map (·.map Cell.render) = [["a:==:b", "c", "3"]] := by
  decide +kernel

/-- It is not enough that no key text holds the separator, since it can overlap with itself. -/
example : Group.joinedKey [0, 1] [.text "a:==", .text "b"] =
    Group.joinedKey [0, 1] [.text "a", .text "==:b"] := by
  decide +kernel

end Table

end Tabular
