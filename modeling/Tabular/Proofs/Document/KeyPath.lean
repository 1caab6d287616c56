import Tabular.Document.KeyPath

/-!
# Names in written key paths

Writing some names as a path and cutting the path again gives the names back, unless the first of
several names is empty or a name before the last ends in a backslash. Cutting a path never gives
such a backslash, so only an empty first name is lost, and a path without a point in front is
written again as it was.
-/

namespace Tabular.KeyPath

theorem cut_ne_nil (cs : List Char) : cut cs ≠ [] := by
  have consFirst_ne_nil (c : Char) (pieces : List (List Char)) : consFirst c pieces ≠ [] := by
    cases pieces <;> simp [consFirst]
  fun_cases cut cs <;> simp [consFirst_ne_nil]

theorem split_ne_nil (path : String) : split path ≠ [] := by
  simp [split, cut_ne_nil]

theorem cut_cons {c : Char} {cs : List Char} (noPoint : c ≠ '.')
    (noEscape : c = '\\' → cs.head? ≠ some '.') : cut (c :: cs) = consFirst c (cut cs) := by
  rw [cut]
  · rintro more rfl rfl
    exact noEscape rfl rfl
  · rintro rfl
    exact noPoint rfl

theorem head?_of_cut_eq_nil_cons {cs piece : List Char} {more : List (List Char)}
    (h : cut cs = [] :: piece :: more) : cs.head? = some '.' := by
  have first (c : Char) (pieces : List (List Char)) : consFirst c pieces ≠ [] :: piece :: more := by
    cases pieces <;> simp [consFirst]
  fun_cases cut cs
  · simp [cut] at h
  · rw [cut] at h
    exact absurd h (first _ _)
  · rfl
  · rename_i c cs noEscape noPoint
    rw [cut.eq_4 _ _ noEscape noPoint] at h
    exact absurd h (first _ _)

/-- A backslash before a point belongs to the point, so no piece but the last ends in one. -/
theorem getLast?_of_mem_dropLast_cut {cs piece : List Char} (member : piece ∈ (cut cs).dropLast) :
    piece.getLast? ≠ some '\\' := by
  induction cs using cut.induct generalizing piece with
  | case1 => simp [cut] at member
  | case2 cs ih =>
    obtain ⟨first, more, pieces⟩ := List.exists_cons_of_ne_nil (cut_ne_nil cs)
    rw [cut, pieces, consFirst] at member
    cases more with
    | nil => simp at member
    | cons second more =>
      rw [pieces] at ih
      rcases List.mem_cons.mp member with rfl | member
      · cases first with
        | nil => simp
        | cons c first => simpa using ih List.mem_cons_self
      · exact ih (List.mem_cons_of_mem _ member)
  | case3 cs ih =>
    obtain ⟨first, more, pieces⟩ := List.exists_cons_of_ne_nil (cut_ne_nil cs)
    rw [cut, pieces] at member
    rw [pieces] at ih
    rcases List.mem_cons.mp member with rfl | member
    · simp
    · exact ih member
  | case4 c cs noEscape noPoint ih =>
    obtain ⟨first, more, pieces⟩ := List.exists_cons_of_ne_nil (cut_ne_nil cs)
    rw [cut.eq_4 _ _ noEscape noPoint, pieces, consFirst] at member
    cases more with
    | nil => simp at member
    | cons second more =>
      rw [pieces] at ih
      rcases List.mem_cons.mp member with rfl | member
      · cases first with
        | nil =>
          -- The piece is one character, and a point follows it.
          have point := head?_of_cut_eq_nil_cons pieces
          obtain ⟨rest, rfl⟩ := List.head?_eq_some_iff.mp point
          rintro last
          exact noEscape rest (by simpa using last) rfl
        | cons d first => simpa using ih List.mem_cons_self
      · exact ih (List.mem_cons_of_mem _ member)

theorem cut_escape_append (cs rest : List Char) {first : List Char} {more : List (List Char)}
    (noEscape : cs.getLast? = some '\\' → rest.head? ≠ some '.')
    (pieces : cut rest = first :: more) :
    cut (escape (String.ofList cs) ++ rest) = (cs ++ first) :: more := by
  simp only [escape, String.toList_ofList]
  induction cs with
  | nil => simpa using pieces
  | cons c cs ih =>
    have inner := ih fun last => noEscape <| by
      cases cs with
      | nil => simp at last
      | cons d cs => simpa using last
    by_cases point : c = '.'
    · subst point
      simp only [List.flatMap_cons, if_true, List.cons_append, List.nil_append]
      rw [cut, inner, consFirst]
    · simp only [List.flatMap_cons, point, if_false, List.cons_append, List.nil_append]
      rw [cut_cons point, inner, consFirst]
      rintro rfl
      cases cs with
      | nil => simpa using noEscape rfl
      | cons d cs => by_cases same : d = '.' <;> simp [same]

theorem ofNames_cons {name : String} (named : name ≠ "") (names : List String) :
    ofNames (name :: names) =
      String.ofList (escape name ++ names.flatMap fun name => '.' :: escape name) := by
  have further (path : String) (filled : path ≠ "") : names.foldl join path =
      String.ofList (path.toList ++ names.flatMap fun name => '.' :: escape name) := by
    induction names generalizing path with
    | nil => simp
    | cons name names ih =>
      have longer : join path name = String.ofList (path.toList ++ '.' :: escape name) := by
        simp [join, String.isEmpty_iff, filled]
      rw [List.foldl_cons, longer, ih _ (by simp)]
      simp
  have first : join "" name = String.ofList (escape name) := by
    simp [join]
  have filled : String.ofList (escape name) ≠ "" := by
    obtain ⟨c, cs, chars⟩ := List.exists_cons_of_ne_nil (mt String.toList_eq_nil_iff.mp named)
    by_cases point : c = '.' <;> simp [escape, chars, point]
  rw [ofNames, List.foldl_cons, first, further _ filled, String.toList_ofList]

/-- The names that can be read back from their written path. -/
structure Writable (names : List String) : Prop where
  nonempty : names ≠ []
  /-- An empty first name stands alone. -/
  named : names.head? = some "" → names.length = 1
  unescaped : ∀ name ∈ names.dropLast, name.toList.getLast? ≠ some '\\'

theorem Writable.of_append {names more : List String} (h : Writable (names ++ more))
    (nonempty : names ≠ []) : Writable names where
  nonempty := nonempty
  named first := by
    have single := h.named (by simp [List.head?_append, first])
    rw [List.length_append] at single
    have := List.length_pos_iff.mpr nonempty
    omega
  unescaped name member := by
    refine h.unescaped name ?_
    cases more with
    | nil => simpa using member
    | cons next more =>
      rw [List.dropLast_append_of_ne_nil (List.cons_ne_nil _ _)]
      exact List.mem_append_left _ (List.dropLast_subset _ member)

theorem writable_split {path : String} (named : (split path).head? ≠ some "") :
    Writable (split path) where
  nonempty := split_ne_nil path
  named first := absurd first named
  unescaped name member := by
    rw [split, ← List.map_dropLast] at member
    obtain ⟨piece, known, rfl⟩ := List.mem_map.mp member
    rw [String.toList_ofList]
    exact getLast?_of_mem_dropLast_cut known

theorem cut_escape_flatMap {name : String} {names : List String}
    (unescaped : ∀ other ∈ (name :: names).dropLast, other.toList.getLast? ≠ some '\\') :
    cut (escape name ++ names.flatMap fun name => '.' :: escape name) =
      (name :: names).map String.toList := by
  induction names generalizing name with
  | nil =>
    have := cut_escape_append name.toList [] (by simp) rfl
    simpa using this
  | cons next names ih =>
    have rest := ih fun other member => unescaped other (List.mem_cons_of_mem _ member)
    have noEscape := unescaped name List.mem_cons_self
    have := cut_escape_append name.toList
      ('.' :: (escape next ++ names.flatMap fun name => '.' :: escape name))
      (fun last => absurd last noEscape) (by rw [cut, rest])
    simpa using this

theorem split_ofNames {names : List String} (h : Writable names) :
    split (ofNames names) = names := by
  obtain ⟨name, rest, rfl⟩ := List.exists_cons_of_ne_nil h.nonempty
  by_cases named : name = ""
  · subst named
    have alone : rest = [] := by simpa using h.named rfl
    subst alone
    rfl
  · rw [ofNames_cons named, split, String.toList_ofList, cut_escape_flatMap h.unescaped,
      List.map_map]
    simp [Function.comp_def]

theorem escape_ofList_cons (c : Char) (cs : List Char) :
    escape (String.ofList (c :: cs)) =
      (if c = '.' then ['\\', '.'] else [c]) ++ escape (String.ofList cs) := by
  simp [escape]

theorem escape_of_cut {cs first : List Char} {more : List (List Char)}
    (pieces : cut cs = first :: more) :
    escape (String.ofList first) ++
      more.flatMap (fun piece => '.' :: escape (String.ofList piece)) = cs := by
  induction cs using cut.induct generalizing first more with
  | case1 =>
    cases pieces
    rfl
  | case2 cs ih =>
    obtain ⟨next, later, rest⟩ := List.exists_cons_of_ne_nil (cut_ne_nil cs)
    rw [cut, rest, consFirst] at pieces
    cases pieces
    rw [escape_ofList_cons, if_pos rfl, List.append_assoc, ih rest]
    rfl
  | case3 cs ih =>
    obtain ⟨next, later, rest⟩ := List.exists_cons_of_ne_nil (cut_ne_nil cs)
    rw [cut, rest] at pieces
    cases pieces
    rw [List.flatMap_cons, List.cons_append, ih rest]
    rfl
  | case4 c cs noEscape noPoint ih =>
    obtain ⟨next, later, rest⟩ := List.exists_cons_of_ne_nil (cut_ne_nil cs)
    rw [cut.eq_4 _ _ noEscape noPoint, rest, consFirst] at pieces
    cases pieces
    rw [escape_ofList_cons, if_neg noPoint, List.append_assoc, ih rest]
    rfl

theorem head?_split_ne {path : String} (filled : path ≠ "")
    (noPoint : path.toList.head? ≠ some '.') : (split path).head? ≠ some "" := by
  obtain ⟨first, more, pieces⟩ := List.exists_cons_of_ne_nil (cut_ne_nil path.toList)
  have whole := escape_of_cut pieces
  rw [split, pieces, List.map_cons, List.head?_cons]
  intro empty
  have none : first = [] := by simpa using empty
  subst none
  cases more with
  | nil => exact filled (String.toList_eq_nil_iff.mp whole.symm)
  | cons next more => exact noPoint (head?_of_cut_eq_nil_cons pieces)

theorem ofNames_split {path : String} (noPoint : path.toList.head? ≠ some '.') :
    ofNames (split path) = path := by
  by_cases filled : path = ""
  · subst filled
    rfl
  · obtain ⟨first, more, pieces⟩ := List.exists_cons_of_ne_nil (cut_ne_nil path.toList)
    have named := head?_split_ne filled noPoint
    rw [split, pieces, List.map_cons, List.head?_cons, Ne, Option.some.injEq] at named
    have whole := escape_of_cut pieces
    rw [split, pieces, List.map_cons, ofNames_cons named, List.flatMap_map, whole,
      String.ofList_toList]

theorem writable_split_of_head? {path : String} (noPoint : path.toList.head? ≠ some '.') :
    Writable (split path) := by
  by_cases filled : path = ""
  · subst filled
    exact ⟨by decide, fun _ => rfl, by decide⟩
  · exact writable_split (head?_split_ne filled noPoint)

/-- A written path has no point in front: an empty first name is not written at all. -/
theorem head?_ofNames (names : List String) : (ofNames names).toList.head? ≠ some '.' := by
  induction names with
  | nil => decide
  | cons name names ih =>
    by_cases named : name = ""
    · subst named
      exact ih
    · obtain ⟨c, cs, chars⟩ := List.exists_cons_of_ne_nil (mt String.toList_eq_nil_iff.mp named)
      have word : name = String.ofList (c :: cs) := by rw [← chars, String.ofList_toList]
      rw [ofNames_cons named, String.toList_ofList, word, escape_ofList_cons]
      split
      · simp
      · rename_i other
        simpa using other

theorem split_ofNames_eq_iff {names : List String} :
    split (ofNames names) = names ↔ Writable names := by
  constructor
  · intro same
    rw [← same]
    exact writable_split_of_head? (head?_ofNames names)
  · exact split_ofNames

theorem writable_cons_iff {name : String} {more : List String} :
    Writable (name :: more) ↔ (more = [] ∨ name ≠ "") ∧
      ∀ other ∈ (name :: more).dropLast, other.toList.getLast? ≠ some '\\' := by
  constructor
  · intro writable
    refine ⟨?_, writable.unescaped⟩
    by_cases named : name = ""
    · subst named
      exact .inl (by simpa using writable.named rfl)
    · exact .inr named
  · rintro ⟨alone | named, unescaped⟩
    · exact ⟨List.cons_ne_nil _ _, fun _ => by simp [alone], unescaped⟩
    · exact ⟨List.cons_ne_nil _ _, fun first => absurd (by simpa using first) named, unescaped⟩

theorem normalize_normalize (path : String) : normalize (normalize path) = normalize path :=
  ofNames_split (head?_ofNames (split path))

/-- Of the paths with an empty first name only the empty path keeps its names. -/
theorem split_normalize_iff {path : String} :
    split (normalize path) = split path ↔ path = "" ∨ (split path).head? ≠ some "" := by
  rw [normalize, split_ofNames_eq_iff]
  constructor
  · intro writable
    by_cases named : (split path).head? = some ""
    · left
      obtain ⟨first, more, pieces⟩ := List.exists_cons_of_ne_nil (cut_ne_nil path.toList)
      have single := writable.named named
      rw [split, pieces] at named single
      have alone : more = [] := by simpa using single
      have empty : first = [] := by simpa using named
      have whole := escape_of_cut pieces
      rw [alone, empty] at whole
      exact String.toList_eq_nil_iff.mp whole.symm
    · exact .inr named
  · rintro (rfl | named)
    · exact ⟨by decide, fun _ => rfl, by decide⟩
    · exact writable_split named

/-- Some names are read back from their written path exactly if the first of several is not empty
and none in front of the last ends in a backslash. The common spelling of a path is its own common
spelling, and has the names of the path unless the first of these is empty. -/
theorem split_ofNames_iff (name : String) (more : List String) :
    (split (ofNames (name :: more)) = name :: more ↔ (more = [] ∨ name ≠ "") ∧
      ∀ other ∈ (name :: more).dropLast, other.toList.getLast? ≠ some '\\') ∧
    ∀ path, normalize (normalize path) = normalize path ∧
      (split (normalize path) = split path ↔ path = "" ∨ (split path).head? ≠ some "") :=
  ⟨split_ofNames_eq_iff.trans writable_cons_iff,
    fun path => ⟨normalize_normalize path, split_normalize_iff⟩⟩

end Tabular.KeyPath
