import Tabular.Document.Reader
import Tabular.Proofs.Document.Grouping
import Tabular.Proofs.Json.RoundTrip
import Tabular.Proofs.Table.PrintedLines
import Tabular.Table.Nesting

/-!
# Objects of texts

A record becomes an object with a text under each label. Asked for at the labels, such an object
gives one row, which holds the fields of the record in their order, although the object has its
members sorted.
-/

namespace Tabular

namespace KeyPath

theorem cut_of_not_mem {cs : List Char} (clear : '.' ∉ cs) : cut cs = [cs] := by
  induction cs with
  | nil => rfl
  | cons c cs ih =>
    obtain ⟨other, clear⟩ := not_or.mp (mt List.mem_cons.mpr clear)
    have noEscape : c = '\\' → cs.head? ≠ some '.' := fun _ point =>
      clear (List.mem_of_mem_head? point)
    rw [cut_cons (Ne.symm other) noEscape, ih clear]
    rfl

theorem split_of_not_mem {name : String} (clear : '.' ∉ name.toList) : split name = [name] := by
  rw [split, cut_of_not_mem clear, List.map_singleton, String.ofList_toList]

theorem ofNames_singleton {name : String} (clear : '.' ∉ name.toList) : ofNames [name] = name := by
  have plain : escape name = name.toList := by
    refine (List.flatMap_congr fun c member => ?_).trans (List.flatMap_singleton' _)
    exact if_neg fun point : c = '.' => clear (point ▸ member)
  simp [ofNames, join, plain]

end KeyPath

namespace KeyTree

variable {keys : List String}

theorem ofKeys_concat (keys : List String) (key : String) :
    ofKeys (keys ++ [key]) = (ofKeys keys).insert (KeyPath.split key) := by
  rw [ofKeys, List.foldl_append]
  rfl

theorem names_ofKeys (plain : ∀ key ∈ keys, '.' ∉ key.toList) (distinct : keys.Nodup) :
    (ofKeys keys).children.map Prod.fst = keys := by
  induction keys using List.reverseRecOn with
  | nil => rfl
  | append_singleton keys key ih =>
    obtain ⟨before, -, apart⟩ := List.nodup_append.mp distinct
    have known := ih (fun other member => plain other (List.mem_append_left _ member)) before
    have new : key ∉ keys := fun member => apart key member key List.mem_cons_self rfl
    rw [ofKeys_concat, KeyPath.split_of_not_mem (plain key (by simp)), KeyTree.insert,
      Keyed.map_fst_update, known, if_neg new]

theorem ofKeys_singleton {key : String} (plain : '.' ∉ key.toList) :
    ofKeys [key] = ⟨[(key, ⟨[], true, key⟩)], false, ""⟩ := by
  have written : KeyPath.join "" key = key := KeyPath.ofNames_singleton plain
  simp [ofKeys, KeyPath.split_of_not_mem plain, KeyTree.insert, empty, Keyed.update, written]

end KeyTree

namespace Nesting

def recordObject (labels fields : List String) : Json :=
  objectOf labels (fields.map Cell.text)

theorem recordObject_eq (labels fields : List String) :
    recordObject labels fields =
      .object (Keyed.sorted (List.zip labels (fields.map Json.string))) := by
  rw [recordObject, objectOf, List.map_map]
  rfl

theorem textual_recordObject (labels fields : List String) (depth : Nat) :
    Json.Textual (depth + 1) (recordObject labels fields) := by
  rw [recordObject_eq]
  refine .object (Keyed.ascending_sorted _) fun member known => ?_
  obtain ⟨s, -, same⟩ := List.mem_map.mp (List.of_mem_zip (Keyed.mem_of_mem_sorted known)).2
  rw [← same]
  exact .string s

theorem positionalNames_of_le {labels : List String} {width : Nat}
    (narrow : width ≤ labels.length) : positionalNames labels width = labels := by
  rw [positionalNames, Nat.sub_eq_zero_of_le narrow]
  exact List.append_nil labels

theorem document_flat (labels : List String) (rows : List Row) (keyCount : Nat) :
    document labels rows false 0 keyCount =
      .ok (.array (rows.map (objectOf (positionalNames labels
        (rows.foldl (fun n row => max n row.length) 0))))) := by
  cases rows <;> rfl

/-- Rows that are no wider than the labels become objects under these. -/
theorem document_of_narrow {labels : List String} {rows : List Row}
    (narrow : ∀ row ∈ rows, row.length ≤ labels.length) (keyCount : Nat) :
    document labels rows false 0 keyCount = .ok (.array (rows.map (objectOf labels))) := by
  have widest := (Layout.foldl_max_le_iff List.length).mpr ⟨Nat.zero_le _, narrow⟩
  rw [document_flat, positionalNames_of_le widest]

end Nesting

namespace Document

open Nesting

variable {labels fields : List String}

theorem member?_recordObject (distinct : labels.Nodup) (same : fields.length = labels.length)
    {label field : String} (member : (label, field) ∈ List.zip labels fields) :
    member? label (Keyed.sorted (List.zip labels (fields.map Json.string))) =
      some (.string field) := by
  have names : (List.zip labels (fields.map Json.string)).map Prod.fst = labels :=
    List.map_fst_zip (by simp [same])
  have known : (label, Json.string field) ∈ List.zip labels (fields.map Json.string) := by
    rw [List.zip_map_right]
    exact List.mem_map.mpr ⟨_, member, rfl⟩
  have found := Keyed.find?_sorted_of_mem (names.symm ▸ distinct) known
  rw [member?, found]
  rfl

theorem gather_of_branching {tree : KeyTree} (branching : 2 ≤ tree.children.length)
    (members : List (String × Json)) :
    gather members tree = ⟨[], [childFindings members tree.children]⟩ := by
  obtain ⟨children, requested, path⟩ := tree
  match children with
  | [] => simp at branching
  | [_] => simp at branching
  | _ :: _ :: _ => rfl

theorem rowOf_eq_map_text {findings : Findings} (plain : ∀ label ∈ labels, '.' ∉ label.toList)
    (same : fields.length = labels.length)
    (found : ∀ label field, (label, field) ∈ List.zip labels fields →
      findings.valuesAt label = [.string field]) :
    rowOf (labels.map KeyPath.normalize) findings = fields.map Cell.text := by
  have fst : (List.zip labels fields).map Prod.fst = labels := List.map_fst_zip (by omega)
  have snd : (List.zip labels fields).map Prod.snd = fields := List.map_snd_zip (by omega)
  rw [rowOf, List.map_map]
  conv_lhs => rw [← fst]
  conv_rhs => rw [← snd]
  rw [List.map_map, List.map_map]
  refine List.map_congr_left ?_
  rintro ⟨label, field⟩ member
  have clear := plain label (List.of_mem_zip member).1
  simp only [Function.comp_apply, KeyPath.normalize, KeyPath.split_of_not_mem clear,
    KeyPath.ofNames_singleton clear, found label field member]
  rfl

theorem valuesAt_childFindings_recordObject (distinct : labels.Nodup)
    (named : ∀ label ∈ labels, label ≠ "") (plain : ∀ label ∈ labels, '.' ∉ label.toList)
    (same : fields.length = labels.length) {label field : String}
    (member : (label, field) ∈ List.zip labels fields) :
    Findings.valuesAt (childFindings (Keyed.sorted (List.zip labels (fields.map Json.string)))
      (KeyTree.ofKeys labels).children) label = [.string field] := by
  have known : label ∈ labels := (List.of_mem_zip member).1
  have cut : ∀ key ∈ labels, KeyPath.split key = [key] := fun key member =>
    KeyPath.split_of_not_mem (plain key member)
  have written : KeyPath.ofNames [label] = label := KeyPath.ofNames_singleton (plain label known)
  have stands : KeyTree.StandsAt [] (KeyTree.ofKeys labels) :=
    KeyTree.standsAt_ofKeys fun key member => by simp [cut key member, named key member]
  have asks : KeyTree.Asks [label] (KeyTree.ofKeys labels) := cut label known ▸
    KeyTree.asks_ofKeys known
  have readable : KeyPath.split (KeyPath.ofNames ([] ++ [label])) = [] ++ [label] := by
    rw [List.nil_append, written, cut label known]
  have values := valuesAt_groupOf stands asks readable
    (Keyed.sorted (List.zip labels (fields.map Json.string)))
  rw [found_object, foundIn, member?_recordObject distinct same member, List.nil_append,
    written] at values
  exact values

theorem flatten_recordObject (filled : labels ≠ []) (distinct : labels.Nodup)
    (named : ∀ label ∈ labels, label ≠ "") (plain : ∀ label ∈ labels, '.' ∉ label.toList)
    (same : fields.length = labels.length) :
    flatten (KeyTree.ofKeys labels) labels (recordObject labels fields) =
      [fields.map Cell.text] := by
  have children := KeyTree.names_ofKeys plain distinct
  rw [recordObject_eq]
  match labels, filled with
  | [label], _ =>
    -- One key has no grouping point, and each of its values is a row.
    obtain ⟨field, rfl⟩ := List.length_eq_one_iff.mp same
    have clear := plain label List.mem_cons_self
    have normal : KeyPath.normalize label = label := by
      rw [KeyPath.normalize, KeyPath.split_of_not_mem clear, KeyPath.ofNames_singleton clear]
    have value : member? label [(label, Json.string field)] = some (.string field) := by
      simp [member?]
    have members : Keyed.sorted (List.zip [label] ([field].map Json.string)) =
        [(label, Json.string field)] := rfl
    simp only [flatten, members, KeyTree.ofKeys_singleton clear, gather, value]
    simp [Gathered.join, Gathered.append, Gathered.none, Json.items, normal, Cell.ofJson]
  | first :: second :: more, _ =>
    have branching : 2 ≤ (KeyTree.ofKeys (first :: second :: more)).children.length := by
      have count := congrArg List.length children
      simp only [List.length_map, List.length_cons] at count
      omega
    have row := rowOf_eq_map_text plain same fun label field =>
      valuesAt_childFindings_recordObject distinct named plain same
    simp only [flatten, gather_of_branching branching]
    exact congrArg (fun row => [row]) row

end Document

end Tabular
