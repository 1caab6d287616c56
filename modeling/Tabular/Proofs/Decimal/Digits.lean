import Mathlib.Algebra.Order.Ring.Nat
import Mathlib.Tactic.Common
import Tabular.Decimal.Integer

/-!
# Decimal digits

A positive number is written without leading zeros, so the count of its digits says between which
powers of ten it lies, and digits without leading zeros are those of their number. What is kept of
some digits is a quotient by a power of ten. The text of an integer is read as that integer again.
-/

namespace Tabular.Decimal

theorem isDigit_of_mem_natChars {n : Nat} {c : Char} (member : c ∈ natChars n) :
    c.isDigit = true :=
  Nat.isDigit_of_mem_toDigits (by decide) (by decide) member

theorem natChars_ne_nil (n : Nat) : natChars n ≠ [] :=
  Nat.toDigits_ne_nil

theorem intChars_ne_nil (n : Int) : intChars n ≠ [] := by
  unfold intChars
  split
  · exact List.cons_ne_nil _ _
  · exact natChars_ne_nil _

theorem natText_injective : Function.Injective natText := by
  intro m n same
  have digits : natChars m = natChars n := by
    simpa [natText] using congrArg String.toList same
  have value := congrArg readNat? digits
  rw [readNat?_natChars, readNat?_natChars] at value
  exact Option.some.inj value

theorem head?_natChars_ne {n : Nat} (filled : n ≠ 0) : (natChars n).head? ≠ some '0' := by
  rw [natChars]
  induction n using Nat.strongRecOn with
  | ind n ih =>
    obtain less | more := Nat.lt_or_ge n 10
    · have single : ∀ n < 10, n ≠ 0 → [Nat.digitChar n].head? ≠ some '0' := by decide
      rw [Nat.toDigits_of_lt_base less]
      exact single n less filled
    · have front := ih (n / 10) (by omega) (by omega)
      obtain ⟨c, cs, spelled⟩ := List.exists_cons_of_ne_nil (@Nat.toDigits_ne_nil (n / 10) 10)
      rw [Nat.toDigits_of_base_le (by decide) more, spelled]
      rwa [spelled] at front

theorem digitValue_lt {c : Char} (digit : c.isDigit = true) : c.toNat - '0'.toNat < 10 := by
  have bounds : 48 ≤ c.toNat ∧ c.toNat ≤ 57 := Char.isDigit_iff_toNat.mp digit
  rw [show '0'.toNat = 48 from rfl]
  omega

theorem ofDigitChars_lt {cs : List Char} (digits : ∀ c ∈ cs, c.isDigit = true) :
    Nat.ofDigitChars 10 cs 0 < 10 ^ cs.length := by
  induction cs with
  | nil => decide
  | cons c cs ih =>
    obtain ⟨here, later⟩ := List.forall_mem_cons.mp digits
    have less := ih later
    have small := digitValue_lt here
    have first : 10 * 0 + (c.toNat - '0'.toNat) ≤ 9 := by omega
    have scaled := Nat.mul_le_mul_left (10 ^ cs.length) first
    rw [Nat.ofDigitChars_cons, Nat.ofDigitChars_eq_ofDigitChars_zero, List.length_cons,
      Nat.pow_succ]
    omega

theorem ofDigitChars_take {cs : List Char} (digits : ∀ c ∈ cs, c.isDigit = true)
    (kept n : Nat) :
    Nat.ofDigitChars 10 (cs.take kept) n =
      Nat.ofDigitChars 10 cs n / 10 ^ (cs.length - kept) := by
  have behind : Nat.ofDigitChars 10 (cs.drop kept) 0 < 10 ^ (cs.length - kept) := by
    rw [← List.length_drop]
    exact ofDigitChars_lt fun c member => digits c (List.mem_of_mem_drop member)
  have whole : Nat.ofDigitChars 10 cs n =
      10 ^ (cs.length - kept) * Nat.ofDigitChars 10 (cs.take kept) n +
        Nat.ofDigitChars 10 (cs.drop kept) 0 := by
    rw [← List.length_drop, ← Nat.ofDigitChars_eq_ofDigitChars_zero, ← Nat.ofDigitChars_append,
      List.take_append_drop]
  rw [whole, Nat.mul_add_div (Nat.pow_pos (by decide)), Nat.div_eq_of_lt behind, Nat.add_zero]

theorem lt_pow_length_natChars (n : Nat) : n < 10 ^ (natChars n).length := by
  have less := @ofDigitChars_lt (natChars n) fun c member => isDigit_of_mem_natChars member
  rwa [natChars, Nat.ofDigitChars_ten_toDigits] at less

theorem pow_length_natChars_le {n : Nat} (filled : n ≠ 0) :
    10 ^ ((natChars n).length - 1) ≤ n := by
  obtain one | more := Nat.eq_zero_or_pos ((natChars n).length - 1)
  · rw [one]
    exact Nat.one_le_iff_ne_zero.mpr filled
  · by_contra less
    have short := (Nat.length_toDigits_le_iff (by decide) more).mpr (Nat.lt_of_not_le less)
    rw [natChars] at more short
    omega

theorem natChars_digit {c : Char} (digit : c.isDigit = true) :
    natChars (c.toNat - '0'.toNat) = [c] := by
  have bounds : 48 ≤ c.toNat ∧ c.toNat ≤ 57 := Char.isDigit_iff_toNat.mp digit
  rw [show '0'.toNat = 48 from rfl, natChars, Nat.toDigits_of_lt_base (by omega)]
  congr 1
  apply Char.toNat_inj.mp
  rw [Nat.toNat_digitChar_of_lt_ten (by omega)]
  omega

/-- Digits behind those of a positive number continue it. -/
theorem natChars_append {cs : List Char} (digits : ∀ c ∈ cs, c.isDigit = true) {n : Nat}
    (positive : 0 < n) : natChars n ++ cs = natChars (Nat.ofDigitChars 10 cs n) := by
  induction cs generalizing n with
  | nil => rw [List.append_nil, Nat.ofDigitChars_nil]
  | cons c cs ih =>
    obtain ⟨digit, later⟩ := List.forall_mem_cons.mp digits
    have next : natChars n ++ [c] = natChars (10 * n + (c.toNat - '0'.toNat)) := by
      rw [← natChars_digit digit]
      exact Nat.toDigits_append_toDigits (by decide) positive (digitValue_lt digit)
    rw [Nat.ofDigitChars_cons, ← ih later (by omega), ← next, List.append_assoc]
    rfl

theorem natChars_ofDigitChars {cs : List Char} (digits : ∀ c ∈ cs, c.isDigit = true)
    (filled : cs ≠ []) (plain : cs.head? = some '0' → cs = ['0']) :
    natChars (Nat.ofDigitChars 10 cs 0) = cs := by
  obtain ⟨c, cs, rfl⟩ := List.exists_cons_of_ne_nil filled
  obtain ⟨digit, later⟩ := List.forall_mem_cons.mp digits
  by_cases zero : c = '0'
  · obtain rfl := zero
    rw [plain rfl]
    rfl
  · have positive : 0 < c.toNat - '0'.toNat := by
      refine Nat.pos_of_ne_zero fun none => zero ?_
      have spelled := natChars_digit digit
      rw [none] at spelled
      exact (List.singleton_inj.mp spelled).symm
    rw [Nat.ofDigitChars_cons, Nat.mul_zero, Nat.zero_add, ← natChars_append later positive,
      natChars_digit digit]
    rfl

section

variable {c : Char} {cs text : List Char} {negative : Bool} {n : Nat}

theorem readSign_of_isDigit (digit : c.isDigit = true) : readSign (c :: cs) = (false, c :: cs) := by
  unfold readSign
  split
  · rename_i same
    cases same
    exact absurd digit (by decide)
  · rename_i same
    cases same
    exact absurd digit (by decide)
  · rfl

theorem readInt?_of_readSign (known : readSign text = (negative, cs))
    (value : readNat? cs = some n) :
    readInt? text = some (if negative then -(n : Int) else n) := by
  unfold readInt?
  rw [known]
  dsimp only
  rw [value]
  rfl

theorem readInt?_intChars (m : Int) : readInt? (intChars m) = some m := by
  have value := readNat?_natChars m.natAbs
  unfold intChars
  split
  · have sign : readSign ('-' :: natChars m.natAbs) = (true, natChars m.natAbs) := rfl
    rw [readInt?_of_readSign sign value, if_pos rfl]
    exact congrArg some (by omega)
  · obtain ⟨c, cs, spelled⟩ := List.exists_cons_of_ne_nil (@Nat.toDigits_ne_nil m.natAbs 10)
    have digit : c.isDigit = true := isDigit_of_mem_natChars (spelled ▸ List.mem_cons_self)
    rw [natChars, spelled] at value ⊢
    rw [readInt?_of_readSign (readSign_of_isDigit digit) value, if_neg Bool.false_ne_true]
    exact congrArg some (by omega)

theorem exists_of_readInt? {m : Int} (read : readInt? text = some m) :
    ∃ negative cs n, readSign text = (negative, cs) ∧ cs ≠ [] ∧ (∀ c ∈ cs, c.isDigit = true) ∧
      Nat.ofDigitChars 10 cs 0 = n ∧ m = if negative then -(n : Int) else n := by
  unfold readInt? at read
  generalize readSign text = parts at read
  obtain ⟨negative, cs⟩ := parts
  dsimp only at read
  cases digits : readNat? cs with
  | none =>
    rw [digits] at read
    cases read
  | some n =>
    rw [digits] at read
    rw [readNat?] at digits
    split at digits
    · rename_i both
      exact ⟨negative, cs, n, rfl, both.1, List.all_eq_true.mp both.2, Option.some.inj digits,
        (Option.some.inj read).symm⟩
    · cases digits

theorem intText_inj {m k : Int} : intText m = intText k ↔ m = k := by
  constructor
  · intro same
    have read := readInt?_intChars m
    rw [String.ofList_injective same, readInt?_intChars k] at read
    exact (Option.some.inj read).symm
  · rintro rfl
    rfl

theorem word?_of_small {n : Nat} (small : n < 2 ^ 63) :
    word? (n : Int) = some (Int64.ofInt n) ∧ (Int64.ofInt n).toInt = n := by
  have known : word? (n : Int) = some (Int64.ofInt n) := if_pos (by omega)
  exact ⟨known, toInt_of_word?_eq_some known⟩

theorem readWord?_wordText (w : Int64) : readWord? (wordText w).toList = some w := by
  rw [readWord?, wordText, intText, String.toList_ofList, readInt?_intChars, Option.bind_some,
    word?_toInt]

end

end Tabular.Decimal
