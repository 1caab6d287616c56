import Tabular.Keyed
import Mathlib.Data.List.Dedup
import Mathlib.Data.List.Induction
import Mathlib.Data.List.Nodup
import Mathlib.Data.List.Perm.Subperm

/-!
# Changing keyed values

What a change at one key does to a keyed list: which keys there are afterwards, which values, and
what a search finds. A key that is put into a list of keys adds itself and nothing else.
-/

namespace Tabular.Keyed

variable {κ β : Type}

section Update

variable [DecidableEq κ] {key k : κ} {fresh value : β} {change : β → β} {pairs : List (κ × β)}

theorem map_fst_update (key : κ) (fresh : β) (change : β → β) (pairs : List (κ × β)) :
    (update key fresh change pairs).map Prod.fst =
      if key ∈ pairs.map Prod.fst then pairs.map Prod.fst else pairs.map Prod.fst ++ [key] := by
  induction pairs with
  | nil => simp [update]
  | cons pair pairs ih =>
    rw [update]
    by_cases same : pair.1 = key
    · simp [same]
    · simp only [same, if_false, List.map_cons, ih, List.mem_cons, Ne.symm same, false_or]
      split <;> rfl

theorem nodup_update (distinct : (pairs.map Prod.fst).Nodup) :
    ((update key fresh change pairs).map Prod.fst).Nodup := by
  rw [map_fst_update]
  split
  · exact distinct
  · rename_i absent
    refine List.nodup_append.mpr ⟨distinct, by simp, fun k member other single => ?_⟩
    rw [List.mem_singleton] at single
    rintro rfl
    exact absent (single ▸ member)

theorem mem_of_mem_update (member : (k, value) ∈ update key fresh change pairs) :
    (k, value) ∈ pairs ∨
      k = key ∧ (value = change fresh ∨ ∃ old, (key, old) ∈ pairs ∧ value = change old) := by
  induction pairs with
  | nil =>
    obtain ⟨rfl, rfl⟩ := Prod.mk.inj (List.mem_singleton.mp member)
    exact .inr ⟨rfl, .inl rfl⟩
  | cons pair pairs ih =>
    obtain ⟨known, old⟩ := pair
    rw [update] at member
    split at member
    · rename_i same
      subst same
      rcases List.mem_cons.mp member with here | later
      · obtain ⟨rfl, rfl⟩ := Prod.mk.inj here
        exact .inr ⟨rfl, .inr ⟨old, List.mem_cons_self, rfl⟩⟩
      · exact .inl (List.mem_cons_of_mem _ later)
    · rcases List.mem_cons.mp member with here | later
      · exact .inl (here ▸ List.mem_cons_self)
      · rcases ih later with known | ⟨same, changed | ⟨old, known, changed⟩⟩
        · exact .inl (List.mem_cons_of_mem _ known)
        · exact .inr ⟨same, .inl changed⟩
        · exact .inr ⟨same, .inr ⟨old, List.mem_cons_of_mem _ known, changed⟩⟩

theorem exists_mem_update (key : κ) (fresh : β) (change : β → β) (pairs : List (κ × β)) :
    ∃ old, (key, change old) ∈ update key fresh change pairs := by
  induction pairs with
  | nil => exact ⟨fresh, List.mem_singleton.mpr rfl⟩
  | cons pair pairs ih =>
    rw [update]
    split
    · rename_i same
      exact ⟨pair.2, same ▸ List.mem_cons_self⟩
    · obtain ⟨old, member⟩ := ih
      exact ⟨old, List.mem_cons_of_mem _ member⟩

theorem mem_update_of_mem (member : (k, value) ∈ pairs) :
    (k, value) ∈ update key fresh change pairs ∨
      (k, change value) ∈ update key fresh change pairs := by
  induction pairs with
  | nil => simp at member
  | cons pair pairs ih =>
    rw [update]
    split
    · rcases List.mem_cons.mp member with rfl | later
      · exact .inr List.mem_cons_self
      · exact .inl (List.mem_cons_of_mem _ later)
    · rcases List.mem_cons.mp member with rfl | later
      · exact .inl List.mem_cons_self
      · exact (ih later).imp (List.mem_cons_of_mem _) (List.mem_cons_of_mem _)

theorem eraseDups_concat (items : List κ) (item : κ) :
    (items ++ [item]).eraseDups =
      if item ∈ items then items.eraseDups else items.eraseDups ++ [item] := by
  rw [List.eraseDups_append]
  split
  · rename_i known
    simp [List.removeAll, known]
  · rename_i new
    simp [List.removeAll, new, List.eraseDups_cons]

theorem nodup_eraseDups (items : List κ) : items.eraseDups.Nodup := by
  induction items using List.reverseRecOn with
  | nil => simp
  | append_singleton items item ih =>
    rw [eraseDups_concat]
    split
    · exact ih
    · rename_i new
      refine List.nodup_append.mpr ⟨ih, by simp, fun other member single here => ?_⟩
      rw [List.mem_singleton] at here
      rintro rfl
      exact new (here ▸ List.mem_eraseDups.mp member)

theorem eraseDups_eq_self {items : List κ} (distinct : items.Nodup) : items.eraseDups = items := by
  induction items using List.reverseRecOn with
  | nil => rfl
  | append_singleton items item ih =>
    obtain ⟨distinct, -, apart⟩ := List.nodup_append.mp distinct
    have new : item ∉ items := fun known => apart item known item List.mem_cons_self rfl
    rw [eraseDups_concat, if_neg new, ih distinct]

theorem filter_eq_singleton {ι : Type} {keyOf : ι → κ} {items : List ι} {item : ι}
    (distinct : (items.map keyOf).Nodup) (known : item ∈ items) :
    items.filter (keyOf · = keyOf item) = [item] := by
  induction items with
  | nil => cases known
  | cons first items ih =>
    rw [List.map_cons, List.nodup_cons] at distinct
    obtain ⟨apart, distinct⟩ := distinct
    obtain rfl | later := List.mem_cons.mp known
    · have none : items.filter (keyOf · = keyOf item) = [] := by
        rw [List.filter_eq_nil_iff]
        intro other member same
        exact apart (List.mem_map.mpr ⟨other, member, of_decide_eq_true same⟩)
      rw [List.filter_cons_of_pos (by simp), none]
    · have differs : keyOf first ≠ keyOf item := by
        intro same
        exact apart (List.mem_map.mpr ⟨item, later, same.symm⟩)
      rw [List.filter_cons_of_neg (by simpa using differs), ih distinct later]

theorem eraseDups_eq_singleton {items : List κ} (filled : items ≠ [])
    (same : ∀ item ∈ items, item = key) : items.eraseDups = [key] := by
  induction items using List.reverseRecOn with
  | nil => exact absurd rfl filled
  | append_singleton items item ih =>
    obtain rfl := same item (by simp)
    rw [eraseDups_concat]
    rcases List.eq_nil_or_concat items with rfl | ⟨front, last, rfl⟩
    · rfl
    · obtain rfl := same last (by simp)
      rw [if_pos (by simp)]
      exact ih (by simp) fun other member => same other (List.mem_append_left _ member)

theorem update_map {keys : List κ} (distinct : keys.Nodup) (values : κ → β) :
    update key fresh change (keys.map fun k => (k, values k)) =
      if key ∈ keys then keys.map fun k => (k, if k = key then change (values k) else values k)
      else keys.map (fun k => (k, values k)) ++ [(key, change fresh)] := by
  induction keys with
  | nil => simp [update]
  | cons first keys ih =>
    obtain ⟨absent, distinct⟩ := List.nodup_cons.mp distinct
    rw [List.map_cons, update]
    by_cases same : first = key
    · subst same
      have others : keys.map (fun k => (k, if k = first then change (values k) else values k)) =
          keys.map fun k => (k, values k) :=
        List.map_congr_left fun k member => by rw [if_neg fun h : k = first => absent (h ▸ member)]
      simp [others]
    · simp only [same, if_false, ih distinct, List.mem_cons, Ne.symm same, false_or, List.map_cons]
      split <;> simp

/-- Items that are taken in one after the other, each at its key, stand under their keys in the
order in which these first come. The value at a key is built from the items of that key alone. -/
theorem foldl_update_eq_map {ι : Type} {keyOf : ι → κ} (start : ι → β) (add : ι → β → β)
    (build : List ι → β) (first : ∀ item, build [item] = add item (start item))
    (next : ∀ items item, items ≠ [] → build (items ++ [item]) = add item (build items))
    (items : List ι) :
    items.foldl (fun pairs item => update (keyOf item) (start item) (add item) pairs) [] =
      (items.map keyOf).eraseDups.map fun k => (k, build (items.filter (keyOf · = k))) := by
  induction items using List.reverseRecOn with
  | nil => rfl
  | append_singleton items item ih =>
    rw [List.foldl_append, ih, List.foldl_cons, List.foldl_nil, update_map (nodup_eraseDups _),
      List.map_append, List.map_singleton, eraseDups_concat]
    by_cases known : keyOf item ∈ items.map keyOf
    · rw [if_pos (List.mem_eraseDups.mpr known), if_pos known]
      refine List.map_congr_left fun k _ => ?_
      by_cases same : k = keyOf item
      · subst same
        obtain ⟨other, member, shared⟩ := List.mem_map.mp known
        have filled : items.filter (keyOf · = keyOf item) ≠ [] :=
          List.ne_nil_of_mem (List.mem_filter.mpr ⟨member, by simpa using shared⟩)
        simp [List.filter_append, next _ _ filled]
      · simp [List.filter_append, same, Ne.symm same]
    · rw [if_neg fun member => known (List.mem_eraseDups.mp member), if_neg known,
        List.map_append, List.map_singleton]
      congr 1
      · refine List.map_congr_left fun k member => ?_
        have other : keyOf item ≠ k := by
          rintro rfl
          exact known (List.mem_eraseDups.mp member)
        simp [List.filter_append, other]
      · have alone : items.filter (keyOf · = keyOf item) = [] :=
          List.filter_eq_nil_iff.mpr fun other member shared =>
            known (List.mem_map.mpr ⟨other, member, by simpa using shared⟩)
        simp [List.filter_append, alone, first]

end Update

section Order

variable [Ord κ] [Std.TransOrd κ] [Std.LawfulEqOrd κ]

theorem insertSorted_comm_of_lt {first second : κ} (less : compare first second = .lt)
    (value other : β) (pairs : List (κ × β)) :
    insertSorted first value (insertSorted second other pairs) =
      insertSorted second other (insertSorted first value pairs) := by
  have greater : compare second first = .gt := Std.OrientedCmp.gt_of_lt less
  induction pairs with
  | nil => simp [insertSorted, less, greater]
  | cons pair pairs ih =>
    obtain ⟨known, old⟩ := pair
    cases place : compare second known with
    | lt =>
      have before : compare first known = .lt := Std.TransCmp.lt_trans less place
      simp [insertSorted, less, greater, place, before]
    | eq =>
      obtain rfl := Std.LawfulEqCmp.eq_of_compare place
      simp [insertSorted, less, greater]
    | gt =>
      cases before : compare first known with
      | lt => simp [insertSorted, greater, place, before]
      | eq =>
        obtain rfl := Std.LawfulEqCmp.eq_of_compare before
        simp [insertSorted, greater]
      | gt => simp [insertSorted, place, before, ih]

theorem insertSorted_comm {first second : κ} (different : first ≠ second) (value other : β)
    (pairs : List (κ × β)) :
    insertSorted first value (insertSorted second other pairs) =
      insertSorted second other (insertSorted first value pairs) := by
  cases order : compare first second with
  | lt => exact insertSorted_comm_of_lt order value other pairs
  | eq => exact absurd (Std.LawfulEqCmp.eq_of_compare order) different
  | gt => exact (insertSorted_comm_of_lt (Std.OrientedCmp.lt_of_gt order) other value pairs).symm

omit [Std.TransOrd κ] [Std.LawfulEqOrd κ] in
theorem sorted_concat (pairs : List (κ × β)) (pair : κ × β) :
    sorted (pairs ++ [pair]) = insertSorted pair.1 pair.2 (sorted pairs) := by
  simp [sorted, List.foldl_append]

def Ascending (pairs : List (κ × β)) : Prop :=
  pairs.Pairwise fun first second => compare first.1 second.1 = .lt

omit [Std.TransOrd κ] [Std.LawfulEqOrd κ] in
theorem mem_of_mem_insertSorted {key : κ} {value : β} {pairs : List (κ × β)} {pair : κ × β}
    (member : pair ∈ insertSorted key value pairs) : pair = (key, value) ∨ pair ∈ pairs := by
  induction pairs with
  | nil => exact .inl (List.mem_singleton.mp member)
  | cons first pairs ih =>
    rw [insertSorted] at member
    split at member
    · exact List.mem_cons.mp member
    · exact (List.mem_cons.mp member).imp_right (List.mem_cons_of_mem _)
    · rcases List.mem_cons.mp member with rfl | later
      · exact .inr List.mem_cons_self
      · exact (ih later).imp_right (List.mem_cons_of_mem _)

omit [Std.TransOrd κ] [Std.LawfulEqOrd κ] in
theorem mem_of_mem_sorted {pairs : List (κ × β)} {pair : κ × β} (member : pair ∈ sorted pairs) :
    pair ∈ pairs := by
  induction pairs using List.reverseRecOn with
  | nil => cases member
  | append_singleton pairs last ih =>
    rw [sorted_concat] at member
    rcases mem_of_mem_insertSorted member with rfl | earlier
    · simp
    · exact List.mem_append_left _ (ih earlier)

theorem ascending_insertSorted {pairs : List (κ × β)} (ascending : Ascending pairs) (key : κ)
    (value : β) : Ascending (insertSorted key value pairs) := by
  induction pairs with
  | nil => exact List.pairwise_singleton _ _
  | cons first pairs ih =>
    obtain ⟨least, later⟩ := List.pairwise_cons.mp ascending
    rw [insertSorted]
    cases place : compare key first.1 with
    | lt =>
      refine List.pairwise_cons.mpr ⟨fun pair member => ?_, ascending⟩
      rcases List.mem_cons.mp member with rfl | behind
      · exact place
      · exact Std.TransCmp.lt_trans place (least pair behind)
    | eq =>
      obtain rfl := Std.LawfulEqCmp.eq_of_compare place
      exact List.pairwise_cons.mpr ⟨least, later⟩
    | gt =>
      refine List.pairwise_cons.mpr ⟨fun pair member => ?_, ih later⟩
      rcases mem_of_mem_insertSorted member with rfl | behind
      · exact Std.OrientedCmp.lt_of_gt place
      · exact least pair behind

theorem ascending_sorted (pairs : List (κ × β)) : Ascending (sorted pairs) := by
  induction pairs using List.reverseRecOn with
  | nil => exact List.Pairwise.nil
  | append_singleton pairs pair ih =>
    rw [sorted_concat]
    exact ascending_insertSorted ih pair.1 pair.2

omit [Std.LawfulEqOrd κ] in
theorem insertSorted_eq_concat {key : κ} {pairs : List (κ × β)}
    (behind : ∀ pair ∈ pairs, compare pair.1 key = .lt) (value : β) :
    insertSorted key value pairs = pairs ++ [(key, value)] := by
  induction pairs with
  | nil => rfl
  | cons first pairs ih =>
    obtain ⟨before, others⟩ := List.forall_mem_cons.mp behind
    have place : compare key first.1 = .gt := Std.OrientedCmp.gt_of_lt before
    rw [insertSorted, place, ih others]
    rfl

omit [Std.LawfulEqOrd κ] in
theorem sorted_eq_self {pairs : List (κ × β)} (ascending : Ascending pairs) :
    sorted pairs = pairs := by
  induction pairs using List.reverseRecOn with
  | nil => rfl
  | append_singleton pairs pair ih =>
    obtain ⟨front, -, last⟩ := List.pairwise_append.mp ascending
    rw [sorted_concat, ih front,
      insertSorted_eq_concat fun other member => last other member pair List.mem_cons_self]

omit [Std.LawfulEqOrd κ] in
theorem Ascending.nodup {pairs : List (κ × β)} (ascending : Ascending pairs) :
    (pairs.map Prod.fst).Nodup := by
  refine List.pairwise_map.mpr (ascending.imp fun {first second} less same => ?_)
  rw [same, Std.ReflOrd.compare_self] at less
  cases less

omit [Std.TransOrd κ] in
theorem mem_map_fst_insertSorted {key k : κ} {value : β} {pairs : List (κ × β)} :
    k ∈ (insertSorted key value pairs).map Prod.fst ↔ k = key ∨ k ∈ pairs.map Prod.fst := by
  induction pairs with
  | nil => simp [insertSorted]
  | cons first pairs ih =>
    rw [insertSorted]
    split
    · simp
    · rename_i place
      obtain rfl := Std.LawfulEqCmp.eq_of_compare place
      simp
    · rw [List.map_cons, List.mem_cons, ih, List.map_cons, List.mem_cons]
      exact or_left_comm

omit [Std.TransOrd κ] in
theorem mem_map_fst_sorted {k : κ} {pairs : List (κ × β)} :
    k ∈ (sorted pairs).map Prod.fst ↔ k ∈ pairs.map Prod.fst := by
  induction pairs using List.reverseRecOn with
  | nil => rfl
  | append_singleton pairs pair ih =>
    rw [sorted_concat, mem_map_fst_insertSorted, ih, List.map_append, List.mem_append]
    simp [or_comm]

theorem length_sorted [DecidableEq κ] (pairs : List (κ × β)) :
    (sorted pairs).length = (pairs.map Prod.fst).dedup.length := by
  have perm : ((sorted pairs).map Prod.fst).Perm (pairs.map Prod.fst).dedup := by
    rw [List.perm_ext_iff_of_nodup (ascending_sorted pairs).nodup (List.nodup_dedup _)]
    exact fun k => mem_map_fst_sorted.trans List.mem_dedup.symm
  rw [← perm.length_eq, List.length_map]

/-- A pair is lost for every key that stands twice. -/
theorem length_sorted_eq_iff [DecidableEq κ] {pairs : List (κ × β)} :
    (sorted pairs).length = pairs.length ↔ (pairs.map Prod.fst).Nodup := by
  have keys : (pairs.map Prod.fst).length = pairs.length := List.length_map ..
  rw [length_sorted, ← keys, ← List.dedup_eq_self]
  constructor
  · intro same
    exact (List.dedup_sublist _).eq_of_length same
  · intro same
    exact congrArg List.length same

theorem perm_sorted [DecidableEq κ] {pairs : List (κ × β)}
    (distinct : (pairs.map Prod.fst).Nodup) : (sorted pairs).Perm pairs := by
  have apart : (sorted pairs).Nodup := (ascending_sorted pairs).nodup.of_map
  have included : sorted pairs ⊆ pairs := fun _ => mem_of_mem_sorted
  exact (List.subperm_of_subset apart included).perm_of_length_le
    (Nat.le_of_eq (length_sorted_eq_iff.mpr distinct).symm)

end Order

section Search

variable [Ord κ] [Std.LawfulEqOrd κ] [BEq κ] [LawfulBEq κ]

theorem find?_insertSorted (key : κ) (value : β) (pairs : List (κ × β)) (name : κ) :
    (insertSorted key value pairs).find? (·.1 == name) =
      if key == name then some (key, value) else pairs.find? (·.1 == name) := by
  induction pairs with
  | nil => cases same : key == name <;> simp [insertSorted, same]
  | cons pair pairs ih =>
    obtain ⟨known, old⟩ := pair
    rw [insertSorted]
    cases place : compare key known with
    | lt => cases same : key == name <;> simp [same]
    | eq =>
      obtain rfl := Std.LawfulEqCmp.eq_of_compare place
      cases same : key == name <;> simp [same]
    | gt =>
      have apart : key ≠ known := by
        rintro rfl
        rw [Std.ReflOrd.compare_self] at place
        cases place
      cases same : known == name with
      | false => simp [same, ih]
      | true =>
        have other : (key == name) = false :=
          beq_false_of_ne fun h => apart (h.trans (eq_of_beq same).symm)
        simp [same, other]

theorem find?_sorted (pairs : List (κ × β)) (name : κ) :
    (sorted pairs).find? (·.1 == name) = pairs.reverse.find? (·.1 == name) := by
  induction pairs using List.reverseRecOn with
  | nil => rfl
  | append_singleton pairs pair ih =>
    rw [sorted_concat, find?_insertSorted, ih, List.reverse_append]
    cases same : pair.1 == name <;> simp [same]

omit [Ord κ] [Std.LawfulEqOrd κ] in
theorem find?_eq_some_of_mem {pairs : List (κ × β)} (distinct : (pairs.map Prod.fst).Nodup)
    {pair : κ × β} (member : pair ∈ pairs) : pairs.find? (·.1 == pair.1) = some pair := by
  induction pairs with
  | nil => simp at member
  | cons first pairs ih =>
    obtain ⟨absent, distinct⟩ := List.nodup_cons.mp distinct
    rcases List.mem_cons.mp member with rfl | later
    · simp
    · have apart : (first.1 == pair.1) = false :=
        beq_false_of_ne fun same => absent (same ▸ List.mem_map_of_mem later)
      simp [apart, ih distinct later]

theorem find?_sorted_of_mem {pairs : List (κ × β)} (distinct : (pairs.map Prod.fst).Nodup)
    {pair : κ × β} (member : pair ∈ pairs) :
    (sorted pairs).find? (·.1 == pair.1) = some pair := by
  rw [find?_sorted]
  refine find?_eq_some_of_mem ?_ (List.mem_reverse.mpr member)
  rw [List.map_reverse]
  exact List.nodup_reverse.mpr distinct

end Search

section Keys

variable [Ord κ] [Std.LawfulEqOrd κ]

theorem mem_insertKey {key k : κ} {keys : List κ} :
    k ∈ insertKey key keys ↔ k = key ∨ k ∈ keys := by
  induction keys with
  | nil => simp [insertKey]
  | cons first keys ih =>
    rw [insertKey]
    split
    · simp
    · rename_i place
      obtain rfl := Std.LawfulEqCmp.eq_of_compare place
      simp
    · rw [List.mem_cons, ih, List.mem_cons]
      exact or_left_comm

theorem mem_foldl_insertKey {k : κ} {items keys : List κ} :
    k ∈ items.foldl (fun known key => insertKey key known) keys ↔ k ∈ items ∨ k ∈ keys := by
  induction items generalizing keys with
  | nil => simp
  | cons item items ih =>
    rw [List.foldl_cons, ih, mem_insertKey, List.mem_cons]
    exact or_left_comm.trans or_assoc.symm

variable [Std.TransOrd κ]

theorem pairwise_insertKey {key : κ} {keys : List κ}
    (ascending : keys.Pairwise fun first second => compare first second = .lt) :
    (insertKey key keys).Pairwise fun first second => compare first second = .lt := by
  induction keys with
  | nil => exact List.pairwise_singleton _ _
  | cons first keys ih =>
    obtain ⟨least, later⟩ := List.pairwise_cons.mp ascending
    rw [insertKey]
    cases place : compare key first with
    | lt =>
      refine List.pairwise_cons.mpr ⟨fun other member => ?_, ascending⟩
      rcases List.mem_cons.mp member with rfl | behind
      · exact place
      · exact Std.TransCmp.lt_trans place (least other behind)
    | eq => exact ascending
    | gt =>
      refine List.pairwise_cons.mpr ⟨fun other member => ?_, ih later⟩
      rcases mem_insertKey.mp member with rfl | behind
      · exact Std.OrientedCmp.lt_of_gt place
      · exact least other behind

theorem pairwise_foldl_insertKey {items keys : List κ}
    (ascending : keys.Pairwise fun first second => compare first second = .lt) :
    (items.foldl (fun known key => insertKey key known) keys).Pairwise
      fun first second => compare first second = .lt := by
  induction items generalizing keys with
  | nil => exact ascending
  | cons item items ih => exact ih (pairwise_insertKey ascending)

omit [Std.LawfulEqOrd κ] in
theorem eq_of_mem_iff {keys others : List κ}
    (ascending : keys.Pairwise fun first second => compare first second = .lt)
    (alike : others.Pairwise fun first second => compare first second = .lt)
    (same : ∀ key, key ∈ keys ↔ key ∈ others) : keys = others := by
  have nodup {keys : List κ}
      (ascending : keys.Pairwise fun first second => compare first second = .lt) : keys.Nodup := by
    refine ascending.imp fun {first second} less same => ?_
    rw [same, Std.ReflOrd.compare_self] at less
    cases less
  have perm := (List.perm_ext_iff_of_nodup (nodup ascending) (nodup alike)).mpr same
  refine perm.eq_of_pairwise (fun _ _ _ _ less greater => ?_) ascending alike
  exact absurd greater (Std.OrientedCmp.not_lt_of_lt less)

end Keys

end Tabular.Keyed
