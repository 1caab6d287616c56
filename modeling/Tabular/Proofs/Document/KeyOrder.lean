import Tabular.Proofs.Document.StrayValues

/-!
# The order of the keys

Two trees that ask for the same paths have the same nodes on the way to the grouping point, although
their children may stand in another order behind it. So which objects become rows, and what is
gathered outside of them, depends on which keys are requested and not on their order. A cell depends
on its own key besides, and the order of the keys is that of the columns only.
-/

namespace Tabular

namespace KeyTree

theorem Ended.exists_asks {child : KeyTree} (ended : Ended child)
    (ends : child.children = [] → child.requested) : ∃ names, Asks names child := by
  induction ended with
  | @node children requested path inner below ih =>
    match children with
    | [] => exact ⟨[], asks_nil_iff.mpr (ends rfl)⟩
    | (name, child) :: rest =>
      obtain ⟨names, asks⟩ := ih name child List.mem_cons_self (inner name child List.mem_cons_self)
      exact ⟨name :: names, .inside List.mem_cons_self asks⟩

theorem Ended.mem_names_iff {tree : KeyTree} (ended : Ended tree) {name : String} :
    name ∈ tree.children.map Prod.fst ↔ ∃ names, Asks (name :: names) tree := by
  cases ended with
  | @node children requested path ends below =>
    constructor
    · intro known
      obtain ⟨⟨_, child⟩, member, rfl⟩ := List.mem_map.mp known
      obtain ⟨names, asks⟩ := (below _ child member).exists_asks (ends _ child member)
      exact ⟨names, .inside member asks⟩
    · rintro ⟨names, asks⟩
      cases asks with
      | inside member further => exact List.mem_map_of_mem member

/-- The nodes ask for the same at themselves and have children of the same names. -/
structure SameNode (left right : KeyTree) : Prop where
  requested : left.requested = right.requested
  path : left.path = right.path
  names : (left.children.map Prod.fst).Perm (right.children.map Prod.fst)

theorem sameNode_of_asks_iff {names : List String} {left right : KeyTree}
    (stands : StandsAt names left) (standsToo : StandsAt names right)
    (ended : Ended left) (endedToo : Ended right)
    (same : ∀ more, Asks more left ↔ Asks more right) : SameNode left right := by
  refine ⟨?requested, ?path, ?names⟩
  case requested =>
    rw [Bool.eq_iff_iff, ← asks_nil_iff, ← asks_nil_iff]
    exact same []
  case path =>
    cases stands
    cases standsToo
    rfl
  case names =>
    have distinct {tree : KeyTree} (stands : StandsAt names tree) :
        (tree.children.map Prod.fst).Nodup := by
      cases stands
      assumption
    rw [List.perm_ext_iff_of_nodup (distinct stands) (distinct standsToo)]
    intro name
    rw [ended.mem_names_iff, endedToo.mem_names_iff]
    exact exists_congr fun more => same (name :: more)

/-- The nodes from here to the grouping point, or to the end of the only path, are the same. -/
inductive SameStem : KeyTree → KeyTree → Prop
  | leaf {requested : Bool} {path : String} :
      SameStem ⟨[], requested, path⟩ ⟨[], requested, path⟩
  | single {name : String} {child other : KeyTree} {requested : Bool} {path : String}
      (below : SameStem child other) :
      SameStem ⟨[(name, child)], requested, path⟩ ⟨[(name, other)], requested, path⟩
  | several {first second third fourth : String × KeyTree} {rest more : List (String × KeyTree)}
      {requested : Bool} {path : String} :
      SameStem ⟨first :: second :: rest, requested, path⟩ ⟨third :: fourth :: more, requested, path⟩

theorem sameStem_of_asks_iff {names : List String} {left right : KeyTree}
    (stands : StandsAt names left) (standsToo : StandsAt names right)
    (ended : Ended left) (endedToo : Ended right)
    (same : ∀ more, Asks more left ↔ Asks more right) : SameStem left right := by
  induction left using KeyTree.branching?.induct generalizing names right with
  | case1 requested path =>
    obtain ⟨others, _, _⟩ := right
    obtain ⟨rfl, rfl, children⟩ := sameNode_of_asks_iff stands standsToo ended endedToo same
    obtain rfl : others = [] := List.map_eq_nil_iff.mp children.nil_eq.symm
    exact .leaf
  | case2 name child requested path ih =>
    obtain ⟨others, _, _⟩ := right
    obtain ⟨rfl, rfl, children⟩ := sameNode_of_asks_iff stands standsToo ended endedToo same
    obtain ⟨⟨first, other⟩, rfl, alike⟩ := List.map_eq_singleton_iff.mp children.symm.eq_singleton
    obtain rfl : name = first := alike.symm
    have inner (more : List String) : Asks more child ↔ Asks more other := by
      have whole := same (name :: more)
      simpa only [asks_cons_single_iff, true_and] using whole
    obtain ⟨-, -, below⟩ := stands
    obtain ⟨-, -, belowToo⟩ := standsToo
    obtain ⟨-, ends⟩ := ended
    obtain ⟨-, endsToo⟩ := endedToo
    exact .single (ih (below _ _ List.mem_cons_self) (belowToo _ _ List.mem_cons_self)
      (ends _ _ List.mem_cons_self) (endsToo _ _ List.mem_cons_self) inner)
  | case3 first second rest requested path =>
    obtain ⟨others, _, _⟩ := right
    obtain ⟨rfl, rfl, children⟩ := sameNode_of_asks_iff stands standsToo ended endedToo same
    have length := children.length_eq
    cases others with
    | nil => cases length
    | cons _ others =>
      cases others with
      | nil => cases length
      | cons => exact .several

/-- The order of the keys does not show in the tree before the grouping point. -/
theorem sameStem_ofKeys {keys others : List String} (permuted : others.Perm keys)
    (named : ∀ key ∈ keys, (KeyPath.split key).head? ≠ some "") :
    SameStem (ofKeys keys) (ofKeys others) := by
  have namedToo : ∀ key ∈ others, (KeyPath.split key).head? ≠ some "" :=
    fun key member => named key (permuted.mem_iff.mp member)
  refine sameStem_of_asks_iff (standsAt_ofKeys named) (standsAt_ofKeys namedToo)
    (ended_ofKeys keys) (ended_ofKeys others) fun names => ?_
  rw [asks_ofKeys_iff, asks_ofKeys_iff]
  exact exists_congr fun key => and_congr_left fun _ => permuted.mem_iff.symm

theorem SameStem.branching?_eq {left right : KeyTree} (same : SameStem left right) :
    left.branching? = right.branching? := by
  induction same with
  | leaf => rfl
  | single _ ih => rw [branching?, branching?, ih]
  | several => rfl

end KeyTree

namespace Document

open KeyTree

theorem loose_gather_of_sameStem {left right : KeyTree} (same : SameStem left right)
    (members : List (String × Json)) :
    (gather members left).loose = (gather members right).loose := by
  induction same generalizing members with
  | leaf => rfl
  | several => rfl
  | @single name child other requested path below ih =>
    have item (item : Json) : (gatherItem child item).loose = (gatherItem other item).loose := by
      cases below with
      | leaf => rfl
      | single | several =>
        cases item with
        | object inner =>
          simp only [gatherItem, Gathered.append, ih inner]
        | _ => rfl
    rw [gather_single, gather_single, loose_join, loose_join, List.flatMap_map, List.flatMap_map]
    exact List.flatMap_congr fun value _ => item value

/-- The cell of a key in the row of an object at the grouping point. It is empty if the key leads no
further than to that point. -/
def cellBehind (point : List String) (object : Json) (key : String) : Cell :=
  if point <+: KeyPath.split key ∧ KeyPath.split key ≠ point then
    collapse (found ((KeyPath.split key).drop point.length) object)
  else .text ""

section

variable {keys point : List String} {members : List (String × Json)}

theorem collapse_valuesAt_groupOf {key : String} {node : KeyTree}
    (named : (KeyPath.split key).head? ≠ some "") (stands : StandsAt point node)
    (asks : ∀ more, point ++ more = KeyPath.split key → Asks more node)
    (members : List (String × Json)) :
    collapse ((groupOf node (.object members)).valuesAt (KeyPath.normalize key)) =
      cellBehind point (.object members) key := by
  have readable : KeyPath.split (KeyPath.normalize key) = KeyPath.split key :=
    KeyPath.split_ofNames (KeyPath.writable_split named)
  by_cases behind : point <+: KeyPath.split key ∧ KeyPath.split key ≠ point
  · rw [cellBehind, if_pos behind]
    obtain ⟨⟨rest, whole⟩, longer⟩ := behind
    obtain ⟨name, more, rfl⟩ : ∃ name more, rest = name :: more := by
      apply List.exists_cons_of_ne_nil
      rintro rfl
      exact longer (by rw [← whole, List.append_nil])
    rw [KeyPath.normalize, ← whole] at readable ⊢
    rw [List.drop_left, valuesAt_groupOf stands (asks _ whole) readable]
  · have nothing : (groupOf node (.object members)).valuesAt (KeyPath.normalize key) = [] := by
      cases stands with
      | node _ _ below =>
        apply valuesAt_childFindings_eq_nil below
        intro name child _ leads
        rw [readable] at leads
        refine behind ⟨(List.prefix_append _ _).trans leads, fun same => ?_⟩
        have longer := leads.length_le
        rw [same, List.length_append, List.length_singleton] at longer
        omega
    rw [nothing, cellBehind, if_neg behind]
    rfl

/-- Where objects stand at the grouping point they make up the rows, and each cell depends on the
object and on its key. -/
theorem flatten_of_reached (branches : (ofKeys keys).branching? = some point)
    (named : ∀ key ∈ keys, (KeyPath.split key).head? ≠ some "")
    (reached : objectsAt point (.object members) ≠ []) :
    flatten (ofKeys keys) keys (.object members) =
      (objectsAt point (.object members)).map fun object => keys.map (cellBehind point object) := by
  obtain ⟨node, stands, asks, groups⟩ := exists_groups_eq branches (standsAt_ofKeys named)
  rw [List.nil_append] at stands
  have objects : objectsAt point (.object members) = objectsIn point (.object members) := by
    rw [objectsAt, found_object, objectsIn]
  rw [objects] at reached ⊢
  have grouped : ((objectsIn point (.object members)).map (groupOf node)).isEmpty = false := by
    simpa using reached
  simp only [flatten, groups, grouped, Bool.false_eq_true, if_false, List.map_map]
  apply List.map_congr_left
  intro object member
  have isObject := (List.mem_filter.mp member).2
  cases object with
  | object inner =>
    rw [Function.comp_apply, rowOf, List.map_map]
    apply List.map_congr_left
    intro key known
    apply collapse_valuesAt_groupOf (named key known) stands
    intro more whole
    exact asks more (whole ▸ asks_ofKeys known)
  | _ => cases isObject

/-- The rows of a document are functions from keys to cells, which do not depend on the order of the
keys. -/
theorem exists_cells (named : ∀ key ∈ keys, (KeyPath.split key).head? ≠ some "")
    (document : Json) :
    ∃ rows : List (String → Cell), ∀ others : List String, others.Perm keys →
      flatten (ofKeys others) others document = rows.map fun cell => others.map cell := by
  cases document with
  | object members =>
    by_cases grouped : ∃ point, (ofKeys keys).branching? = some point ∧
        objectsAt point (.object members) ≠ []
    · obtain ⟨point, branches, reached⟩ := grouped
      refine ⟨(objectsAt point (.object members)).map (cellBehind point), fun others permuted => ?_⟩
      rw [List.map_map]
      apply flatten_of_reached _ _ reached
      · rw [← (sameStem_ofKeys permuted named).branching?_eq, branches]
      · exact fun key member => named key (permuted.mem_iff.mp member)
    · have ungrouped {others : List String} (permuted : others.Perm keys) :
          (gather members (ofKeys others)).groups.isEmpty = true := by
        apply groups_isEmpty
        intro point branches
        rw [← (sameStem_ofKeys permuted named).branching?_eq] at branches
        by_contra reached
        refine grouped ⟨point, branches, ?_⟩
        rwa [objectsAt, found_object]
      have loose {others : List String} (permuted : others.Perm keys) :
          (gather members (ofKeys others)).loose = (gather members (ofKeys keys)).loose :=
        (loose_gather_of_sameStem (sameStem_ofKeys permuted named) members).symm
      by_cases single : keys.length = 1
      · obtain ⟨key, rfl⟩ := List.length_eq_one_iff.mp single
        refine ⟨((gather members (ofKeys [key])).loose.valuesAt (KeyPath.normalize key)).map
          fun value _ => Cell.ofJson value, fun others permuted => ?_⟩
        obtain rfl := permuted.eq_singleton
        rw [flatten_single_of_ungrouped (ungrouped permuted), List.map_map]
        rfl
      · refine ⟨if (gather members (ofKeys keys)).loose.isEmpty then []
          else [fun key => collapse
            ((gather members (ofKeys keys)).loose.valuesAt (KeyPath.normalize key))],
          fun others permuted => ?_⟩
        rw [flatten_several_of_ungrouped (ungrouped permuted) (permuted.length_eq ▸ single),
          loose permuted]
        split
        · rfl
        · rw [rowOf, List.map_map]
          rfl
  | _ => exact ⟨[], fun _ _ => rfl⟩

end

/-- The items at some places. -/
def arrange {α : Type} (places : List Nat) (items : List α) : List α :=
  places.filterMap (items[·]?)

theorem arrange_map {α β : Type} (places : List Nat) (f : α → β) (items : List α) :
    arrange places (items.map f) = (arrange places items).map f := by
  simp only [arrange, List.map_filterMap, List.getElem?_map]

theorem arrange_range {α : Type} (items : List α) :
    arrange (List.range items.length) items = items := by
  induction items with
  | nil => rfl
  | cons item items ih =>
    rw [arrange, List.length_cons, List.range_succ_eq_map,
      List.filterMap_cons_some (List.getElem?_cons_zero ..), List.filterMap_map]
    exact congrArg (item :: ·) ih

theorem arrange_perm {α : Type} {places : List Nat} {items : List α}
    (all : places.Perm (List.range items.length)) : (arrange places items).Perm items := by
  have same := all.filterMap (items[·]?)
  rwa [← arrange, ← arrange, arrange_range] at same

/-- The order of the keys is that of the columns and nothing else: with the keys in another order a
document has the same rows in the same order, and the cells of each row stand in the order of their
keys. -/
theorem flatten_arrange {keys : List String} {places : List Nat}
    (named : ∀ key ∈ keys, (KeyPath.split key).head? ≠ some "")
    (all : places.Perm (List.range keys.length)) (document : Json) :
    (∀ row ∈ flatten (ofKeys keys) keys document, row.length = keys.length) ∧
    flatten (ofKeys (arrange places keys)) (arrange places keys) document =
      (flatten (ofKeys keys) keys document).map (arrange places) := by
  obtain ⟨rows, cells⟩ := exists_cells named document
  rw [cells keys (.refl keys), cells _ (arrange_perm all), List.map_map]
  constructor
  · intro row member
    obtain ⟨cell, _, rfl⟩ := List.mem_map.mp member
    exact List.length_map cell
  · apply List.map_congr_left
    intro cell _
    exact (arrange_map places cell keys).symm

/-- A repeated key, a key that leads to the grouping point only, and a list between that point and
the end of a path. -/
theorem flatten_arrange_pods :
    let keys := ["pods.name", "pods.parts.n", "pods", "pods.name"]
    let places := [2, 1, 3, 0]
    let document : Json := .object [("pods", .array [
      .object [("name", .string "p"), ("parts", .array [.object [("n", .int 1)], .int 2])],
      .string "stray", .object [("parts", .object [("n", .array [.int 3, .int 4])])]])]
    (∀ key ∈ keys, (KeyPath.split key).head? ≠ some "") ∧
    places.Perm (List.range keys.length) ∧
    arrange places keys = ["pods", "pods.parts.n", "pods.name", "pods.name"] ∧
    (∀ row ∈ flatten (ofKeys keys) keys document, row.length = keys.length) ∧
    flatten (ofKeys (arrange places keys)) (arrange places keys) document =
      (flatten (ofKeys keys) keys document).map (arrange places) := by
  intro keys places document
  have named : ∀ key ∈ keys, (KeyPath.split key).head? ≠ some "" := by decide +kernel
  have all : places.Perm (List.range keys.length) := by decide
  exact ⟨named, all, rfl, flatten_arrange named all document⟩

end Document

end Tabular
