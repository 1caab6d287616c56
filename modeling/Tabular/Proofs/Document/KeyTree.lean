import Tabular.Document.Flatten
import Tabular.Proofs.Document.KeyPath
import Tabular.Proofs.Keyed

/-!
# The tree of requested paths

Every node of the tree of some keys stands at the names that lead to it: its written path is that
of these names and can be read back, and its children have different names. The tree asks for the
paths that were put into it and for no others.
-/

namespace Tabular.KeyTree

/-- The node stands behind some names. The path of the root is read as one empty name, so reading
back is asked of the other nodes only. -/
inductive StandsAt : List String → KeyTree → Prop
  | node {names : List String} {children : List (String × KeyTree)} {requested : Bool}
      (readable : names ≠ [] → KeyPath.split (KeyPath.ofNames names) = names)
      (distinct : (children.map Prod.fst).Nodup)
      (below : ∀ name child, (name, child) ∈ children → StandsAt (names ++ [name]) child) :
      StandsAt names ⟨children, requested, KeyPath.ofNames names⟩

/-- A requested path leads on from the node by some names. -/
inductive Asks : List String → KeyTree → Prop
  | here {children : List (String × KeyTree)} {path : String} : Asks [] ⟨children, true, path⟩
  | inside {name : String} {names : List String} {child : KeyTree}
      {children : List (String × KeyTree)} {requested : Bool} {path : String}
      (member : (name, child) ∈ children) (further : Asks names child) :
      Asks (name :: names) ⟨children, requested, path⟩

theorem standsAt_empty {names : List String}
    (readable : names ≠ [] → KeyPath.split (KeyPath.ofNames names) = names) :
    StandsAt names (empty (KeyPath.ofNames names)) :=
  .node readable List.nodup_nil (by simp)

theorem ofNames_concat (names : List String) (name : String) :
    KeyPath.ofNames (names ++ [name]) = KeyPath.join (KeyPath.ofNames names) name := by
  simp [KeyPath.ofNames, List.foldl_append]

theorem mem_children_insert {name other : String} {names : List String} {tree child : KeyTree}
    (member : (other, child) ∈ (tree.insert (name :: names)).children) :
    (other, child) ∈ tree.children ∨
      other = name ∧ ∃ old : KeyTree, child = old.insert names ∧
        (old = empty (KeyPath.join tree.path name) ∨ (name, old) ∈ tree.children) := by
  rcases Keyed.mem_of_mem_update member with known | ⟨same, fresh | ⟨old, known, changed⟩⟩
  · exact .inl known
  · exact .inr ⟨same, _, fresh, .inl rfl⟩
  · exact .inr ⟨same, old, changed, .inr known⟩

theorem StandsAt.insert {names more : List String} {tree : KeyTree} (stands : StandsAt names tree)
    (writable : KeyPath.Writable (names ++ more)) : StandsAt names (tree.insert more) := by
  induction more generalizing names tree with
  | nil =>
    cases stands with
    | node readable distinct below => exact .node readable distinct below
  | cons name more ih =>
    have writable : KeyPath.Writable ((names ++ [name]) ++ more) := by simpa using writable
    have readable : KeyPath.split (KeyPath.ofNames (names ++ [name])) = names ++ [name] :=
      KeyPath.split_ofNames (writable.of_append (by simp))
    cases stands with
    | node shorter distinct below =>
      refine .node shorter (Keyed.nodup_update distinct) fun other child member => ?_
      rcases mem_children_insert member with known | ⟨rfl, old, rfl, rfl | known⟩
      · exact below other child known
      · rw [← ofNames_concat]
        exact ih (standsAt_empty fun _ => readable) writable
      · exact ih (below _ old known) writable

theorem asks_insert (names : List String) (tree : KeyTree) : Asks names (tree.insert names) := by
  induction names generalizing tree with
  | nil => exact .here
  | cons name names ih =>
    obtain ⟨old, member⟩ := Keyed.exists_mem_update name (empty (KeyPath.join tree.path name))
      (KeyTree.insert names) tree.children
    exact .inside member (ih old)

theorem Asks.insert {names : List String} {tree : KeyTree} (asks : Asks names tree)
    (more : List String) : Asks names (tree.insert more) := by
  induction more generalizing names tree with
  | nil =>
    cases asks with
    | here => exact .here
    | inside member further => exact .inside member further
  | cons name more ih =>
    cases asks with
    | here => exact .here
    | inside member further =>
      rcases Keyed.mem_update_of_mem member with kept | changed
      · exact .inside kept further
      · exact .inside changed (ih further)

theorem not_asks_empty (names : List String) (path : String) : ¬Asks names (empty path) := by
  intro asks
  cases asks with
  | inside member _ => cases member

/-- A new path is the only one that is asked for in addition. -/
theorem Asks.of_insert {names more : List String} {tree : KeyTree}
    (asks : Asks names (tree.insert more)) : Asks names tree ∨ names = more := by
  induction more generalizing names tree with
  | nil =>
    obtain ⟨children, requested, path⟩ := tree
    cases asks with
    | here => exact .inr rfl
    | inside member further => exact .inl (.inside member further)
  | cons name more ih =>
    obtain ⟨children, requested, path⟩ := tree
    cases asks with
    | here => exact .inl .here
    | inside member further =>
      rcases mem_children_insert member with known | ⟨rfl, old, rfl, rfl | known⟩
      · exact .inl (.inside known further)
      · rcases ih further with fresh | rfl
        · exact absurd fresh (not_asks_empty _ _)
        · exact .inr rfl
      · rcases ih further with before | rfl
        · exact .inl (.inside known before)
        · exact .inr rfl

theorem standsAt_ofKeys {keys : List String}
    (named : ∀ key ∈ keys, (KeyPath.split key).head? ≠ some "") :
    StandsAt [] (ofKeys keys) := by
  have insertAll (tree : KeyTree) (stands : StandsAt [] tree) :
      StandsAt [] (keys.foldl (fun tree key => tree.insert (KeyPath.split key)) tree) := by
    induction keys generalizing tree with
    | nil => exact stands
    | cons key keys ih =>
      exact ih (fun other member => named other (List.mem_cons_of_mem _ member)) _
        (stands.insert (KeyPath.writable_split (named key List.mem_cons_self)))
  exact insertAll _ (standsAt_empty (by simp))

theorem asks_ofKeys {keys : List String} {key : String} (member : key ∈ keys) :
    Asks (KeyPath.split key) (ofKeys keys) := by
  have kept (tree : KeyTree) (keys : List String) {names : List String} (asks : Asks names tree) :
      Asks names (keys.foldl (fun tree key => tree.insert (KeyPath.split key)) tree) := by
    induction keys generalizing tree with
    | nil => exact asks
    | cons key keys ih => exact ih _ (asks.insert _)
  obtain ⟨before, after, rfl⟩ := List.append_of_mem member
  rw [ofKeys, List.foldl_append, List.foldl_cons]
  exact kept _ after (asks_insert _ _)

theorem asks_ofKeys_iff {keys : List String} {names : List String} :
    Asks names (ofKeys keys) ↔ ∃ key ∈ keys, KeyPath.split key = names := by
  constructor
  · intro asks
    induction keys using List.reverseRecOn with
    | nil => exact absurd asks (not_asks_empty _ _)
    | append_singleton keys key ih =>
      rw [ofKeys, List.foldl_append] at asks
      rcases asks.of_insert with before | rfl
      · obtain ⟨other, member, same⟩ := ih before
        exact ⟨other, List.mem_append_left _ member, same⟩
      · exact ⟨key, by simp, rfl⟩
  · rintro ⟨key, member, rfl⟩
    exact asks_ofKeys member

end Tabular.KeyTree
