import Tabular.Proofs.Decimal.Digits
import Tabular.Range.Reader

/-!
# Bounds between dashes

The bounds of a dash interval are read in one pass, in which a dash is a separator or a sign by what
stands next to it. What a text spells is said here as a relation: stretches without dashes whose
digits write the bounds, each with the sign that the dashes in front of it give it. A text that
spells no bounds in this way has none.
-/

namespace Tabular

namespace Decimal

variable {digits : List Char}

theorem readSign_of_digits (all : ∀ c ∈ digits, c.isDigit = true) :
    readSign digits = (false, digits) := by
  cases digits with
  | nil => rfl
  | cons c cs => exact readSign_of_isDigit (all c List.mem_cons_self)

theorem exists_readWord?_of_digits {n : Nat} (all : ∀ c ∈ digits, c.isDigit = true)
    (value : readNat? digits = some n) (small : n < 2 ^ 63) :
    ∃ w, readWord? digits = some w ∧ w.toInt = n := by
  obtain ⟨word, same⟩ := word?_of_small small
  refine ⟨_, ?_, same⟩
  rw [readWord?, readInt?_of_readSign (readSign_of_digits all) value, if_neg Bool.false_ne_true,
    Option.bind_some, word]

theorem readNat?_of_readWord? {w : Int64} (all : ∀ c ∈ digits, c.isDigit = true)
    (read : readWord? digits = some w) :
    ∃ n, readNat? digits = some n ∧ n < 2 ^ 63 ∧ w.toInt = n := by
  rw [readWord?, Option.bind_eq_some_iff] at read
  obtain ⟨m, value, word⟩ := read
  obtain ⟨negative, cs, n, sign, filled, -, written, rfl⟩ := exists_of_readInt? value
  obtain ⟨rfl, rfl⟩ := Prod.ext_iff.mp ((readSign_of_digits all).symm.trans sign)
  have known := toInt_of_word?_eq_some word
  rw [if_neg Bool.false_ne_true] at known
  have most := Int64.toInt_lt w
  exact ⟨n, written ▸ if_pos ⟨filled, List.all_eq_true.mpr all⟩, by omega, known⟩

end Decimal

namespace Range

/-- The digits of a stretch without dashes write a number that fits into a word. -/
def Writes (n : Nat) (stretch : List Char) : Prop :=
  '-' ∉ stretch ∧ Decimal.readNat? (stretch.filter Char.isDigit) = some n ∧ n < 2 ^ 63

/-- A text without dashes and digits. -/
def Idle (cs : List Char) : Prop :=
  '-' ∉ cs ∧ cs.filter Char.isDigit = []

def signed (negative : Bool) (n : Nat) : Int :=
  if negative then -n else n

/-- Where a bound begins, after a bound of the given sign: whether it is negative, and the text
without a minus sign in front of it. Where neither a dash nor a digit comes first, the sign stays as
it was. -/
inductive Begins (negative : Bool) : List Char → Bool → List Char → Prop where
  | dash (cs : List Char) : Begins negative ('-' :: cs) true cs
  | digit {c : Char} (cs : List Char) :
      c.isDigit = true → Begins negative (c :: cs) false (c :: cs)
  | other {c : Char} (cs : List Char) :
      c ≠ '-' → c.isDigit = false → Begins negative (c :: cs) negative (c :: cs)

/-- The bounds that a text spells when the first of them has the given sign. -/
inductive Spells : Bool → List Char → List Int → Prop where
  | idle {negative : Bool} {cs : List Char} : Idle cs → Spells negative cs []
  | last {negative : Bool} {cs : List Char} {n : Nat} :
      Writes n cs → Spells negative cs [signed negative n]
  | next {negative sign : Bool} {stretch behind rest : List Char} {n : Nat} {bounds : List Int} :
      Writes n stretch → Begins negative behind sign rest → Spells sign rest bounds →
      Spells negative (stretch ++ '-' :: behind) (signed negative n :: bounds)

theorem ne_dash_of_isDigit {c : Char} (digit : c.isDigit = true) : c ≠ '-' := by
  rintro rfl
  cases digit

namespace DashState

variable {state : DashState} {negative sign : Bool} {stretch behind rest : List Char}

theorem read_cons_of_ne {c : Char} (other : c ≠ '-') (state : DashState) (cs : List Char) :
    read state (c :: cs) =
      if c.isDigit then read { state with digits := c :: state.digits } cs else read state cs := by
  rw [read]
  exact fun same => other same

theorem read_append (clear : '-' ∉ stretch) (state : DashState) (rest : List Char) :
    read state (stretch ++ rest) =
      read { state with digits := (stretch.filter Char.isDigit).reverse ++ state.digits } rest := by
  induction stretch generalizing state with
  | nil => rfl
  | cons c cs ih =>
    rw [List.mem_cons, not_or] at clear
    rw [List.cons_append, read_cons_of_ne (Ne.symm clear.1), ih clear.2, ih clear.2]
    split
    · rename_i digit
      rw [List.filter_cons_of_pos digit, List.reverse_cons, List.append_assoc]
      rfl
    · rename_i digit
      rw [List.filter_cons_of_neg digit]

def after (bounds : List Int) (negative : Bool) (stretch : List Char) : DashState :=
  ⟨bounds, (stretch.filter Char.isDigit).reverse, negative⟩

theorem read_stretch (clear : '-' ∉ stretch) (bounds : List Int) (negative : Bool)
    (rest : List Char) :
    read ⟨bounds, [], negative⟩ (stretch ++ rest) = read (after bounds negative stretch) rest := by
  rw [read_append clear, List.append_nil]
  rfl

theorem digits_of_filter (stretch : List Char) :
    ∀ c ∈ stretch.filter Char.isDigit, c.isDigit = true :=
  fun _ member => (List.mem_filter.mp member).2

theorem bound?_of_writes {n : Nat} (writes : Writes n stretch) (bounds : List Int)
    (negative : Bool) : (after bounds negative stretch).bound? = some (signed negative n) := by
  obtain ⟨-, value, small⟩ := writes
  obtain ⟨w, read, same⟩ :=
    Decimal.exists_readWord?_of_digits (digits_of_filter stretch) value small
  simp only [bound?, after, List.reverse_reverse, read, Option.map_some, same, signed]

theorem exists_writes {bounds : List Int} {bound : Int} (clear : '-' ∉ stretch)
    (found : (after bounds negative stretch).bound? = some bound) :
    ∃ n, Writes n stretch ∧ bound = signed negative n := by
  simp only [bound?, after, List.reverse_reverse, Option.map_eq_some_iff] at found
  obtain ⟨w, read, rfl⟩ := found
  obtain ⟨n, value, small, same⟩ := Decimal.readNat?_of_readWord? (digits_of_filter stretch) read
  refine ⟨n, ⟨clear, value, small⟩, ?_⟩
  rw [same]
  rfl

theorem read_dash {bound : Int} (found : state.bound? = some bound)
    (begins : Begins state.negative behind sign rest) :
    read state ('-' :: behind) = read ⟨state.bounds ++ [bound], [], sign⟩ rest := by
  cases begins with
  | dash => simp [read, found]
  | @digit c cs digit =>
    have other : c ≠ '-' := ne_dash_of_isDigit digit
    rw [read_cons_of_ne other, if_pos digit]
    simp [read, found, digit]
  | other cs other stray =>
    rw [read_cons_of_ne other, stray, if_neg Bool.false_ne_true]
    simp [read, found, stray]

/-- A dash without a bound in front of it or without anything behind it spoils the text. -/
theorem read_dash_eq_nil (spoilt : state.bound? = none ∨ behind = []) :
    read state ('-' :: behind) = [] := by
  rcases spoilt with none | rfl
  · simp [read, none]
  · cases found : state.bound? <;> simp [read, found]

end DashState

open DashState in
theorem Spells.read {negative : Bool} {cs : List Char} {more : List Int}
    (spells : Spells negative cs more) (bounds : List Int) :
    DashState.read ⟨bounds, [], negative⟩ cs = bounds ++ more := by
  induction spells generalizing bounds with
  | @idle negative cs idle =>
    have read := read_stretch idle.1 bounds negative []
    rw [List.append_nil] at read
    rw [read, DashState.read, after, idle.2, List.reverse_nil, if_pos rfl, List.append_nil]
  | @last negative cs n writes =>
    have filled : (after bounds negative cs).digits ≠ [] := by
      intro none
      have value := writes.2.1
      rw [List.reverse_eq_nil_iff.mp none] at value
      cases value
    have read := read_stretch writes.1 bounds negative []
    rw [List.append_nil] at read
    rw [read, DashState.read, if_neg filled, bound?_of_writes writes]
    rfl
  | next writes begins _ ih =>
    rw [read_stretch writes.1, read_dash (bound?_of_writes writes bounds _) begins, ih,
      List.append_assoc]
    rfl

theorem exists_begins (negative : Bool) {behind : List Char} (filled : behind ≠ []) :
    ∃ sign rest, Begins negative behind sign rest ∧ rest.length ≤ behind.length := by
  obtain ⟨c, cs, rfl⟩ := List.exists_cons_of_ne_nil filled
  by_cases dash : c = '-'
  · subst dash
    exact ⟨true, cs, .dash cs, by simp⟩
  · cases digit : c.isDigit with
    | true => exact ⟨false, _, .digit cs digit, le_refl _⟩
    | false => exact ⟨negative, _, .other cs dash digit, le_refl _⟩

open DashState in
/-- Bounds are read only from a text that spells some. -/
theorem exists_spells {negative : Bool} {bounds : List Int} {cs : List Char}
    (read : DashState.read ⟨bounds, [], negative⟩ cs ≠ []) : ∃ more, Spells negative cs more := by
  induction size : cs.length using Nat.strongRecOn generalizing negative bounds cs with
  | ind size ih =>
    subst size
    by_cases dashed : '-' ∈ cs
    · obtain ⟨stretch, behind, rfl, clear⟩ := List.eq_append_cons_of_mem dashed
      rw [read_stretch clear] at read
      cases found : (after bounds negative stretch).bound? with
      | none => exact absurd (read_dash_eq_nil (.inl found)) read
      | some bound =>
        have filled : behind ≠ [] := fun empty => read (read_dash_eq_nil (.inr empty))
        obtain ⟨n, writes, rfl⟩ := exists_writes clear found
        obtain ⟨sign, rest, begins, shorter⟩ := exists_begins negative filled
        rw [read_dash found begins] at read
        obtain ⟨more, spells⟩ := ih rest.length (by simp; omega) read rfl
        exact ⟨_, .next writes begins spells⟩
    · rw [← List.append_nil cs, read_stretch dashed, DashState.read] at read
      by_cases none : cs.filter Char.isDigit = []
      · exact ⟨[], .idle ⟨dashed, none⟩⟩
      · rw [if_neg (by simpa [after] using none)] at read
        cases found : (after bounds negative cs).bound? with
        | none => exact absurd (by rw [found]) read
        | some bound =>
          obtain ⟨n, writes, rfl⟩ := exists_writes dashed found
          exact ⟨_, .last writes⟩

theorem dashBounds_of_begins {sign : Bool} {cs rest : List Char}
    (begins : Begins false cs sign rest) : dashBounds cs = DashState.read ⟨[], [], sign⟩ rest := by
  cases begins with
  | dash => rfl
  | digit cs digit =>
    rw [dashBounds]
    rintro more same
    exact ne_dash_of_isDigit digit (List.cons.inj same).1
  | other cs other =>
    rw [dashBounds]
    rintro more same
    exact other (List.cons.inj same).1

theorem dashBounds_of_spells {sign : Bool} {cs rest : List Char} {bounds : List Int}
    (begins : Begins false cs sign rest) (spells : Spells sign rest bounds) :
    dashBounds cs = bounds :=
  (dashBounds_of_begins begins).trans (spells.read [])

theorem exists_spells_dashBounds {cs : List Char} (filled : dashBounds cs ≠ []) :
    ∃ sign rest, Begins false cs sign rest ∧ Spells sign rest (dashBounds cs) := by
  have nonempty : cs ≠ [] := by
    rintro rfl
    exact filled rfl
  obtain ⟨sign, rest, begins, -⟩ := exists_begins false nonempty
  rw [dashBounds_of_begins begins] at filled
  obtain ⟨bounds, spells⟩ := exists_spells filled
  exact ⟨sign, rest, begins, (dashBounds_of_spells begins spells).symm ▸ spells⟩

end Range

end Tabular
