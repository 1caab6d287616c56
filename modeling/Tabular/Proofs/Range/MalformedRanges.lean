import Tabular.Proofs.Range.WordLengths

/-!
# Malformed ranges

A text that has none of the forms of a range should name nothing. The reader is more lenient than
that in four ways, and these are the only ones: a side of an interval that is no integer is open and
what stands behind a second colon is dropped, the entries of a list count although other parts of it
are malformed, a part may hold stray characters, and it may end with two dashes.
-/

namespace Tabular.Range

open Text (trimChars piecesBy)

def IsNumeral (cs : List Char) : Prop :=
  cs ≠ [] ∧ ∀ c ∈ cs, c.isDigit = true

def IsBound (cs : List Char) : Prop :=
  IsNumeral cs ∨ ∃ digits, cs = '-' :: digits ∧ IsNumeral digits

def IsIndex (cs : List Char) : Prop :=
  IsBound cs ∨ ∃ digits, cs = '+' :: digits ∧ IsNumeral digits

def IsDashed (cs : List Char) : Prop :=
  ∃ lower upper, cs = lower ++ '-' :: upper ∧ IsBound lower ∧ IsBound upper

def IsEntry (cs : List Char) : Prop :=
  IsIndex cs ∨ IsDashed cs

/-- A side of an interval with a colon may be blank. -/
def IsSide (cs : List Char) : Prop :=
  trimChars cs = [] ∨ IsIndex (trimChars cs)

/-- The texts of ranges, without the blanks around them. -/
inductive WellFormed : List Char → Prop where
  | index {cs : List Char} : IsIndex cs → WellFormed cs
  | interval {start stop : List Char} :
      IsSide start → IsSide stop → WellFormed (start ++ ':' :: stop)
  | dashed {cs : List Char} : IsDashed cs → WellFormed cs
  | list {cs : List Char} :
      (∀ part ∈ piecesBy (· == ',') cs, IsEntry (trimChars part)) → WellFormed cs

theorem exists_cons_iff {c : Char} {P : List Char → Prop} {cs : List Char} :
    (∃ more, cs = c :: more ∧ P more) ↔ cs.head? = some c ∧ P cs.tail := by
  cases cs <;> simp [and_comm]

theorem exists_append_cons_iff {c : Char} {P Q : List Char → Prop} {cs : List Char} :
    (∃ front behind, cs = front ++ c :: behind ∧ P front ∧ Q behind) ↔
      ∃ i ∈ List.range cs.length, cs[i]? = some c ∧ P (cs.take i) ∧ Q (cs.drop (i + 1)) := by
  constructor
  · rintro ⟨front, behind, rfl, holds, more⟩
    refine ⟨front.length, by simp, by simp, by simpa using holds, ?_⟩
    rw [← List.drop_drop, List.drop_left]
    exact more
  · rintro ⟨i, member, here, holds, more⟩
    have inside : i < cs.length := List.mem_range.mp member
    refine ⟨_, _, ?_, holds, more⟩
    rw [← (List.getElem?_eq_some_iff.mp here).2, ← List.drop_eq_getElem_cons inside,
      List.take_append_drop]

instance (cs : List Char) : Decidable (IsNumeral cs) :=
  decidable_of_iff (cs ≠ [] ∧ cs.all Char.isDigit = true) (and_congr_right' List.all_eq_true)

instance (cs : List Char) : Decidable (IsBound cs) :=
  decidable_of_iff _ (or_congr_right exists_cons_iff.symm)

instance (cs : List Char) : Decidable (IsIndex cs) :=
  decidable_of_iff _ (or_congr_right exists_cons_iff.symm)

instance (cs : List Char) : Decidable (IsDashed cs) :=
  decidable_of_iff _ exists_append_cons_iff.symm

instance (cs : List Char) : Decidable (IsEntry cs) :=
  inferInstanceAs (Decidable (_ ∨ _))

instance (cs : List Char) : Decidable (IsSide cs) :=
  inferInstanceAs (Decidable (_ ∨ _))

theorem wellFormed_iff {cs : List Char} :
    WellFormed cs ↔ IsIndex cs ∨
      (∃ start stop, cs = start ++ ':' :: stop ∧ IsSide start ∧ IsSide stop) ∨ IsDashed cs ∨
      ∀ part ∈ piecesBy (· == ',') cs, IsEntry (trimChars part) := by
  constructor
  · intro formed
    cases formed with
    | index index => exact .inl index
    | interval first second => exact .inr (.inl ⟨_, _, rfl, first, second⟩)
    | dashed dashed => exact .inr (.inr (.inl dashed))
    | list entries => exact .inr (.inr (.inr entries))
  · rintro (index | ⟨start, stop, rfl, first, second⟩ | dashed | entries)
    · exact .index index
    · exact .interval first second
    · exact .dashed dashed
    · exact .list entries

instance (cs : List Char) : Decidable (WellFormed cs) :=
  decidable_of_iff _ ((or_congr_right (or_congr_left exists_append_cons_iff)).symm.trans
    wellFormed_iff.symm)

/-- A text without colons and commas that is read as an index or as an interval that is not empty.
-/
inductive Yields : List Char → Prop where
  | word {cs : List Char} {w : Int64} : Decimal.readWord? cs = some w → Yields cs
  | index {cs rest : List Char} {sign : Bool} {n : Int} :
      Begins false cs sign rest → Spells sign rest [n] → Yields cs
  | interval {cs rest : List Char} {sign : Bool} {lower upper : Int} :
      Begins false cs sign rest → Spells sign rest [lower, upper] → lower < upper → Yields cs

/-- Where a side of an interval lies in a list, with the place of an open side. -/
def sidePosition (length : UInt64) (missing : Int) (side : List Char) : Int :=
  ((trimmedIndex? side).map (resolveWord length)).getD missing

/-- Why a text that has none of the forms may still name positions of a list. -/
inductive Lenient (length : UInt64) : List Char → Prop where
  /-- A side that is no integer is open, and a second colon and what follows it are dropped. -/
  | sides {start stop behind : List Char} :
      ':' ∉ start → ':' ∉ stop → (behind = [] ∨ ∃ more, behind = ':' :: more) →
      sidePosition length 0 start < sidePosition length (signedWord length) stop →
      Lenient length (start ++ ':' :: (stop ++ behind))
  /-- An entry counts beside malformed parts. -/
  | beside {cs part : List Char} :
      ':' ∉ cs → ',' ∈ cs → part ∈ piecesBy (· == ',') cs → IsEntry (trimChars part) →
      Yields (trimChars part) → Lenient length cs
  /-- Other characters than digits and dashes are passed over. -/
  | stray {cs part : List Char} {c : Char} :
      ':' ∉ cs → part ∈ piecesBy (· == ',') cs → c ∈ trimChars part → c ≠ '-' →
      c.isDigit = false → Yields (trimChars part) → Lenient length cs
  /-- Two dashes at the end are passed over. -/
  | doubled {cs part front : List Char} :
      ':' ∉ cs → part ∈ piecesBy (· == ',') cs → trimChars part = front ++ ['-', '-'] →
      Yields (trimChars part) → Lenient length cs

theorem integersFrom_eq_nil_iff {start stop : Int} :
    integersFrom start stop = [] ↔ stop ≤ start := by
  rw [List.eq_nil_iff_forall_not_mem]
  constructor
  · intro none
    by_contra more
    exact none start (mem_integersFrom.mpr (by omega))
  · intro less i member
    have between := mem_integersFrom.mp member
    omega

theorem resolveBounds_ne_nil_iff {bounds : List Int} :
    resolveBounds bounds ≠ [] ↔
      (∃ n, bounds = [n]) ∨ ∃ lower upper, bounds = [lower, upper] ∧ lower < upper := by
  match bounds with
  | [] => simp [resolveBounds]
  | [n] => simp [resolveBounds]
  | [lower, upper] => simp [resolveBounds, integersFrom_eq_nil_iff]
  | _ :: _ :: _ :: _ => simp [resolveBounds]

theorem itemIndices_ne_nil_iff {part : List Char} :
    itemIndices part ≠ [] ↔ Yields (trimChars part) := by
  rw [itemIndices]
  generalize trimChars part = cs
  cases read : Decimal.readWord? cs with
  | some w => simpa using Yields.word read
  | none =>
    dsimp only
    rw [resolveBounds_ne_nil_iff]
    constructor
    · intro named
      have filled : dashBounds cs ≠ [] := by
        rintro empty
        simp [empty] at named
      obtain ⟨sign, rest, begins, spells⟩ := exists_spells_dashBounds filled
      rcases named with ⟨n, bounds⟩ | ⟨lower, upper, bounds, less⟩
      · exact .index begins (bounds ▸ spells)
      · exact .interval begins (bounds ▸ spells) less
    · intro yields
      cases yields with
      | word found => cases read.symm.trans found
      | index begins spells => exact .inl ⟨_, dashBounds_of_spells begins spells⟩
      | interval begins spells less =>
        exact .inr ⟨_, _, dashBounds_of_spells begins spells, less⟩

theorem positions_list_ne_nil_iff {cs : List Char} (closed : ':' ∉ cs) (length : UInt64) :
    (readChars cs).wordPositions length ≠ [] ↔
      ∃ part ∈ piecesBy (· == ',') cs, Yields (trimChars part) := by
  rw [readChars_of_not_mem_colon closed]
  simp only [ofIndices, wordPositions, positionsBy, Bool.false_eq_true, if_false, ne_eq,
    List.map_eq_nil_iff, List.flatMap_eq_nil_iff, not_forall, exists_prop, ← itemIndices_ne_nil_iff]

theorem positions_sides {start stop behind : List Char} (first : ':' ∉ start) (second : ':' ∉ stop)
    (ends : behind = [] ∨ ∃ more, behind = ':' :: more) (length : UInt64) :
    (readChars (start ++ ':' :: (stop ++ behind))).wordPositions length =
      integersFrom (sidePosition length 0 start)
        (sidePosition length (signedWord length) stop) := by
  rw [readChars_interval first second ends]
  rfl

theorem Lenient.positions_ne_nil {length : UInt64} {cs : List Char} (lenient : Lenient length cs) :
    (readChars cs).wordPositions length ≠ [] := by
  cases lenient with
  | sides first second ends less =>
    rw [positions_sides first second ends, ne_eq, integersFrom_eq_nil_iff]
    omega
  | beside closed _ member _ yields | stray closed member _ _ _ yields
  | doubled closed member _ yields =>
    exact (positions_list_ne_nil_iff closed length).mpr ⟨_, member, yields⟩

def Strict (cs : List Char) : Prop :=
  ∀ c ∈ cs, c = '-' ∨ c.isDigit = true

def EndsDoubled (cs : List Char) : Prop :=
  ∃ front, cs = front ++ ['-', '-']

section

variable {cs rest stretch : List Char} {negative sign : Bool} {n : Nat}

theorem Strict.of_append {lead : List Char} (strict : Strict (lead ++ rest)) :
    Strict lead ∧ Strict rest :=
  List.forall_mem_append.mp strict

theorem EndsDoubled.append (ends : EndsDoubled rest) (lead : List Char) :
    EndsDoubled (lead ++ rest) := by
  obtain ⟨front, rfl⟩ := ends
  exact ⟨lead ++ front, (List.append_assoc ..).symm⟩

theorem isNumeral_of_writes (writes : Writes n stretch) (strict : Strict stretch) :
    IsNumeral stretch := by
  obtain ⟨clear, value, -⟩ := writes
  constructor
  · rintro rfl
    cases value
  · intro c member
    refine (strict c member).resolve_left ?_
    rintro rfl
    exact clear member

theorem Begins.exists_lead (begins : Begins negative cs sign rest) :
    ∃ lead, (lead = [] ∨ lead = ['-']) ∧ cs = lead ++ rest := by
  cases begins with
  | dash => exact ⟨['-'], .inr rfl, rfl⟩
  | digit | other => exact ⟨[], .inl rfl, rfl⟩

theorem isBound_append {lead digits : List Char} (sign : lead = [] ∨ lead = ['-'])
    (numeral : IsNumeral digits) : IsBound (lead ++ digits) := by
  rcases sign with rfl | rfl
  · exact .inl numeral
  · exact .inr ⟨digits, rfl, numeral⟩

/-- A strict text spells no bounds only behind two dashes. -/
theorem Spells.eq_dash (begins : Begins negative cs sign rest) (spells : Spells sign rest [])
    (strict : Strict cs) : cs = ['-'] := by
  cases spells with
  | idle idle =>
    obtain ⟨lead, -, rfl⟩ := begins.exists_lead
    have empty : rest = [] := by
      refine List.eq_nil_iff_forall_not_mem.mpr fun c member => ?_
      rcases strict.of_append.2 c member with rfl | digit
      · exact idle.1 member
      · exact (List.filter_eq_nil_iff.mp idle.2) c member digit
    subst empty
    generalize whole : lead ++ [] = text at begins
    cases begins with
    | dash => rfl

theorem Spells.of_single {m : Int} (spells : Spells sign rest [m]) (strict : Strict rest) :
    IsNumeral rest ∨ EndsDoubled rest := by
  cases spells with
  | last writes => exact .inl (isNumeral_of_writes writes strict)
  | @next _ _ stretch behind _ _ _ writes begins idle =>
    have behindStrict : Strict behind := fun c member =>
      strict c (List.mem_append_right _ (List.mem_cons_of_mem _ member))
    have alone := Spells.eq_dash begins idle behindStrict
    exact .inr ⟨stretch, by rw [alone]⟩

theorem Spells.of_pair {lower upper : Int} (spells : Spells sign rest [lower, upper])
    (strict : Strict rest) :
    (∃ first second, rest = first ++ '-' :: second ∧ IsNumeral first ∧ IsBound second) ∨
      EndsDoubled rest := by
  cases spells with
  | @next _ _ stretch behind after _ _ writes begins more =>
    obtain ⟨front, later⟩ := strict.of_append
    have behindStrict : Strict behind := (List.forall_mem_cons.mp later).2
    obtain ⟨lead, dash, rfl⟩ := begins.exists_lead
    rcases more.of_single behindStrict.of_append.2 with numeral | doubled
    · exact .inl ⟨stretch, _, rfl, isNumeral_of_writes writes front, isBound_append dash numeral⟩
    · have whole := (doubled.append lead).append (stretch ++ ['-'])
      rw [List.append_assoc] at whole
      exact .inr whole

theorem isIndex_of_readWord? {w : Int64} (read : Decimal.readWord? cs = some w) : IsIndex cs := by
  rw [Decimal.readWord?, Option.bind_eq_some_iff] at read
  obtain ⟨m, read, -⟩ := read
  obtain ⟨negative, digits, n, parts, filled, all, -⟩ := Decimal.exists_of_readInt? read
  have known := readSign_cases cs
  rw [parts] at known
  dsimp only at known
  rcases known with rfl | ⟨sign, rfl | rfl, rfl⟩
  · exact .inl (.inl ⟨filled, all⟩)
  · exact .inl (.inr ⟨digits, rfl, filled, all⟩)
  · exact .inr ⟨digits, rfl, filled, all⟩

/-- A strict text that does not end with two dashes is read only if it is an index or an interval.
-/
theorem Yields.isEntry (yields : Yields cs) (strict : Strict cs) (ends : ¬EndsDoubled cs) :
    IsEntry cs := by
  cases yields with
  | word read => exact .inl (isIndex_of_readWord? read)
  | index begins spells =>
    obtain ⟨lead, sign, rfl⟩ := begins.exists_lead
    rcases spells.of_single strict.of_append.2 with numeral | doubled
    · exact .inl (.inl (isBound_append sign numeral))
    · exact absurd (doubled.append lead) ends
  | interval begins spells =>
    obtain ⟨lead, sign, rfl⟩ := begins.exists_lead
    rcases spells.of_pair strict.of_append.2 with ⟨first, second, rfl, numeral, bound⟩ | doubled
    · refine .inr ⟨lead ++ first, second, ?_, isBound_append sign numeral, bound⟩
      rw [List.append_assoc]
    · exact absurd (doubled.append lead) ends

end

theorem lenient_of_positions {cs : List Char} {length : UInt64} (trimmed : trimChars cs = cs)
    (malformed : ¬WellFormed cs) (named : (readChars cs).wordPositions length ≠ []) :
    Lenient length cs := by
  by_cases colon : ':' ∈ cs
  · obtain ⟨start, stop, behind, rfl, first, second, ends⟩ := exists_sides colon
    rw [positions_sides first second ends, ne_eq, integersFrom_eq_nil_iff] at named
    exact .sides first second ends (by omega)
  · obtain ⟨part, member, yields⟩ := (positions_list_ne_nil_iff colon length).mp named
    by_cases strict : Strict (trimChars part)
    · by_cases ends : EndsDoubled (trimChars part)
      · obtain ⟨front, doubled⟩ := ends
        exact .doubled colon member doubled yields
      · have entry := yields.isEntry strict ends
        refine .beside colon ?_ member entry yields
        -- A text without commas is its own only part.
        by_contra single
        rw [Text.piecesBy_eq_singleton single, List.mem_singleton] at member
        rw [member, trimmed] at entry
        exact malformed (entry.elim .index .dashed)
    · obtain ⟨c, inside, stray⟩ : ∃ c ∈ trimChars part, ¬(c = '-' ∨ c.isDigit = true) := by
        simpa [Strict] using strict
      rw [not_or, Bool.not_eq_true] at stray
      exact .stray colon member inside stray.1 stray.2 yields

/-- A text that has none of the forms of a range names nothing, unless the reader is lenient with
it. -/
theorem positions_read_malformed {s : String} (malformed : ¬WellFormed (trimChars s.toList))
    (length : UInt64) :
    (read s).wordPositions length = [] ↔ ¬Lenient length (trimChars s.toList) := by
  rw [read, ← readChars_trimChars]
  constructor
  · intro nothing lenient
    exact lenient.positions_ne_nil nothing
  · intro never
    by_contra named
    exact never (lenient_of_positions (Text.trimChars_trimChars _) malformed named)

/-- Dashes without numbers, three bounds, blanks inside a part and a number that fits into no word.
-/
theorem positions_read_malformed_dashes :
    let s := " 7-,1-2-3,-, --4,- 5-,99999999999999999999\t"
    ¬WellFormed (trimChars s.toList) ∧
    ∀ length, (read s).wordPositions length = [] ∧ ¬Lenient length (trimChars s.toList) := by
  intro s
  have malformed : ¬WellFormed (trimChars s.toList) := by decide
  have indices : read s = ⟨.listed [], false⟩ := by decide
  have nothing (length : UInt64) : (read s).wordPositions length = [] := by
    rw [indices]
    rfl
  exact ⟨malformed, fun length =>
    ⟨nothing length, (positions_read_malformed malformed length).mp (nothing length)⟩⟩

/-- Sides that are no integers are open, and all positions are named. -/
theorem positions_read_words :
    ¬WellFormed (trimChars "a:b".toList) ∧ (read "a:b").wordPositions 5 = [0, 1, 2, 3, 4] := by
  decide

end Tabular.Range
