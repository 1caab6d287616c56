import Tabular.Proofs.Document.KeyTree

/-!
# What is found at a path

The values of a document at some names are enumerated by following the names one after the other,
where a list stands for its elements at every step. What the tree of the requested paths gathers at
the written form of a path is this enumeration: no value of another path is among them, whether it
stands beside the path, above it or below it.
-/

namespace Tabular.Document

/-- The values behind the names, in the order of the document. -/
def found : List String → Json → List Json
  | [], value => value.items
  | name :: names, value => value.items.flatMap fun
      | .object members => (member? name members).elim [] (found names)
      | _ => []

/-- The values behind the names for one element of a list, which is not cut up itself. -/
def foundIn : List String → Json → List Json
  | [], item => [item]
  | name :: names, .object members => (member? name members).elim [] (found names)
  | _ :: _, _ => []

theorem found_eq_flatMap (names : List String) (value : Json) :
    found names value = value.items.flatMap (foundIn names) := by
  cases names with
  | nil =>
    have single : foundIn [] = fun item => [item] := funext fun _ => rfl
    rw [found, single, List.flatMap_singleton']
  | cons name names =>
    rw [found]
    congr 1
    funext item
    cases item <;> rfl

theorem found_object (names : List String) (members : List (String × Json)) :
    found names (.object members) = foundIn names (.object members) := by
  simp [found_eq_flatMap, Json.items]

end Tabular.Document

namespace Tabular.Findings

theorem valuesAt_append (a b : Findings) (path : String) :
    valuesAt (a ++ b) path = valuesAt a path ++ valuesAt b path := by
  simp [valuesAt]

theorem valuesAt_flatMap {α : Type} (items : List α) (findings : α → Findings) (path : String) :
    valuesAt (items.flatMap findings) path =
      items.flatMap fun item => valuesAt (findings item) path := by
  induction items with
  | nil => rfl
  | cons item items ih => rw [List.flatMap_cons, valuesAt_append, ih, List.flatMap_cons]

theorem valuesAt_eq_nil {findings : Findings} {path : String}
    (elsewhere : ∀ other value, (other, value) ∈ findings → other ≠ path) :
    findings.valuesAt path = [] := by
  simp only [valuesAt, List.map_eq_nil_iff, List.filter_eq_nil_iff, beq_iff_eq, Prod.forall]
  exact elsewhere

@[simp] theorem valuesAt_self (path : String) (value : Json) :
    valuesAt [(path, value)] path = [value] := by
  simp [valuesAt]

end Tabular.Findings

namespace Tabular.Document

open KeyTree

theorem mem_childFindings {members : List (String × Json)} {children : List (String × KeyTree)}
    {finding : String × Json} (member : finding ∈ childFindings members children) :
    ∃ name child item, (name, child) ∈ children ∧ finding ∈ itemFindings child item := by
  induction children with
  | nil => simp [childFindings] at member
  | cons pair children ih =>
    rw [childFindings] at member
    rcases List.mem_append.mp member with here | later
    · obtain ⟨item, -, inside⟩ := List.mem_flatMap.mp here
      exact ⟨pair.1, pair.2, item, List.mem_cons_self, inside⟩
    · obtain ⟨name, child, item, known, inside⟩ := ih later
      exact ⟨name, child, item, List.mem_cons_of_mem _ known, inside⟩

/-- At a node with children an object is looked into; everything else is found itself. -/
theorem itemFindings_cases (children : List (String × KeyTree)) (requested : Bool) (path : String)
    (item : Json) :
    (∃ members, item = .object members ∧ children ≠ [] ∧
      itemFindings ⟨children, requested, path⟩ item =
        childFindings members children ++ if requested then [(path, item)] else []) ∨
    ((∀ members, item = .object members → children = []) ∧
      itemFindings ⟨children, requested, path⟩ item = [(path, item)]) := by
  cases children with
  | nil => exact .inr ⟨fun _ _ => rfl, by cases item <;> rfl⟩
  | cons child children =>
    cases item with
    | object members => exact .inl ⟨members, rfl, List.cons_ne_nil _ _, rfl⟩
    | _ => exact .inr ⟨fun _ same => Json.noConfusion same, rfl⟩

theorem split_of_mem_itemFindings {names : List String} {tree : KeyTree}
    (stands : StandsAt names tree) (nonempty : names ≠ []) {item : Json} {path : String}
    {value : Json} (member : (path, value) ∈ itemFindings tree item) :
    ∃ more, KeyPath.split path = names ++ more := by
  induction stands generalizing item with
  | @node names children requested readable distinct below ih =>
    have self : ∃ more, KeyPath.split (KeyPath.ofNames names) = names ++ more :=
      ⟨[], by rw [List.append_nil, readable nonempty]⟩
    rcases itemFindings_cases children requested (KeyPath.ofNames names) item with
      ⟨members, -, -, findings⟩ | ⟨-, findings⟩
    · rw [findings] at member
      rcases List.mem_append.mp member with inside | here
      · obtain ⟨name, child, item, known, inside⟩ := mem_childFindings inside
        obtain ⟨more, read⟩ := ih name child known (by simp) inside
        exact ⟨name :: more, by simpa using read⟩
      · split at here
        · cases List.mem_singleton.mp here
          exact self
        · simp at here
    · rw [findings] at member
      cases List.mem_singleton.mp member
      exact self

theorem valuesAt_childFindings_eq_nil {names : List String} {path : String}
    {children : List (String × KeyTree)} {members : List (String × Json)}
    (below : ∀ name child, (name, child) ∈ children → StandsAt (names ++ [name]) child)
    (elsewhere : ∀ name child, (name, child) ∈ children →
      ¬ names ++ [name] <+: KeyPath.split path) :
    Findings.valuesAt (childFindings members children) path = [] := by
  refine Findings.valuesAt_eq_nil fun other value member => ?_
  obtain ⟨name, child, item, known, inside⟩ := mem_childFindings member
  obtain ⟨more, read⟩ := split_of_mem_itemFindings (below name child known) (by simp) inside
  rintro rfl
  exact elsewhere name child known ⟨more, read.symm⟩

theorem childFindings_append (members : List (String × Json))
    (first second : List (String × KeyTree)) :
    childFindings members (first ++ second) =
      childFindings members first ++ childFindings members second := by
  induction first with
  | nil => rfl
  | cons child first ih => simp only [List.cons_append, childFindings, ih, List.append_assoc]

/-- What the members of an object hold at a path is what the child of that name holds. -/
theorem valuesAt_childFindings {names more : List String} {name : String} {child : KeyTree}
    {children : List (String × KeyTree)} (distinct : (children.map Prod.fst).Nodup)
    (below : ∀ name child, (name, child) ∈ children → StandsAt (names ++ [name]) child)
    (member : (name, child) ∈ children)
    (readable : KeyPath.split (KeyPath.ofNames (names ++ name :: more)) = names ++ name :: more)
    (inner : ∀ item, Findings.valuesAt (itemFindings child item)
      (KeyPath.ofNames (names ++ name :: more)) = foundIn more item)
    (members : List (String × Json)) :
    Findings.valuesAt (childFindings members children) (KeyPath.ofNames (names ++ name :: more)) =
      foundIn (name :: more) (.object members) := by
  obtain ⟨before, after, rfl⟩ := List.append_of_mem member
  have others (side : List (String × KeyTree))
      (known : ∀ pair ∈ side, pair ∈ before ∨ pair ∈ after) :
      Findings.valuesAt (childFindings members side)
        (KeyPath.ofNames (names ++ name :: more)) = [] := by
    refine valuesAt_childFindings_eq_nil
      (fun other tree stands => below other tree ?_) fun other tree stands leads => ?_
    · rcases known _ stands with first | later
      · exact List.mem_append_left _ first
      · exact List.mem_append_right _ (List.mem_cons_of_mem _ later)
    · -- Another child of the same name would stand beside this one.
      rw [readable, List.prefix_append_right_inj] at leads
      obtain rfl : other = name := by simpa using leads
      rw [List.map_append, List.map_cons, List.nodup_append] at distinct
      rcases known _ stands with first | later
      · exact distinct.2.2 other (List.mem_map_of_mem first) other List.mem_cons_self rfl
      · exact (List.nodup_cons.mp distinct.2.1).1 (List.mem_map.mpr ⟨_, later, rfl⟩)
  rw [childFindings_append, childFindings, Findings.valuesAt_append, Findings.valuesAt_append,
    others before fun _ => .inl, others after fun _ => .inr, List.nil_append, List.append_nil,
    Findings.valuesAt_flatMap, funext inner, foundIn]
  cases member? name members with
  | none => rfl
  | some value => exact (found_eq_flatMap more value).symm

theorem valuesAt_itemFindings {names more : List String} {tree : KeyTree}
    (stands : StandsAt names tree) (nonempty : names ≠ []) (asks : Asks more tree)
    (readable : KeyPath.split (KeyPath.ofNames (names ++ more)) = names ++ more) (item : Json) :
    Findings.valuesAt (itemFindings tree item) (KeyPath.ofNames (names ++ more)) =
      foundIn more item := by
  induction asks generalizing names item with
  | @here children path =>
    cases stands with
    | node _ distinct below =>
      rw [List.append_nil] at readable ⊢
      rcases itemFindings_cases children true (KeyPath.ofNames names) item with
        ⟨members, -, -, findings⟩ | ⟨-, findings⟩
      · have deeper : Findings.valuesAt (childFindings members children)
            (KeyPath.ofNames names) = [] := by
          refine valuesAt_childFindings_eq_nil below fun name child _ leads => ?_
          have shorter := leads.length_le
          rw [readable, List.length_append, List.length_singleton] at shorter
          omega
        rw [findings, Findings.valuesAt_append, deeper, if_pos rfl, Findings.valuesAt_self]
        rfl
      · rw [findings, Findings.valuesAt_self]
        rfl
  | @inside name more child children requested path member further ih =>
    cases stands with
    | node shorter distinct below =>
      have apart (value : Json) : Findings.valuesAt [(KeyPath.ofNames names, value)]
          (KeyPath.ofNames (names ++ name :: more)) = [] := by
        refine Findings.valuesAt_eq_nil fun other value member => ?_
        cases List.mem_singleton.mp member
        intro same
        have read := congrArg KeyPath.split same
        rw [readable, shorter nonempty] at read
        simp at read
      rcases itemFindings_cases children requested (KeyPath.ofNames names) item with
        ⟨members, rfl, -, findings⟩ | ⟨noObject, findings⟩
      · have inner (item : Json) := ih (below name child member) (by simp) (by simpa using readable)
          item
        simp only [List.append_assoc, List.singleton_append] at inner
        rw [findings, Findings.valuesAt_append,
          valuesAt_childFindings distinct below member readable inner]
        split
        · rw [apart, List.append_nil]
        · simp [Findings.valuesAt]
      · rw [findings, apart]
        cases item with
        | object members =>
          rw [noObject members rfl] at member
          simp at member
        | _ => rfl

end Tabular.Document
