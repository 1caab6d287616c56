import Mathlib.Data.String.Basic
import Tabular.Proofs.Decimal.Arithmetic
import Tabular.Proofs.Decimal.ReadBack
import Tabular.Proofs.Json.Numbers

/-!
# Integers as they are written

A number that is written as an integer is read as this integer, as long as it fits into 64 bits with
or without a sign. Only a zero with a sign becomes a float. The text of a float always shows that it
is one, so it is the text of no integer.
-/

namespace Tabular.Json

/-- A number that is written as an integer. A zero does not stand in front of other digits. -/
structure IntegerText where
  negative : Bool
  digits : List Char
  areDigits : ∀ c ∈ digits, c.isDigit = true
  filled : digits ≠ []
  plain : digits.head? = some '0' → digits = ['0']

namespace IntegerText

variable (number : IntegerText)

def magnitude : Nat :=
  Nat.ofDigitChars 10 number.digits 0

def value : Int :=
  if number.negative then -(number.magnitude : Int) else number.magnitude

def chars : List Char :=
  if number.negative then '-' :: number.digits else number.digits

def text : String :=
  String.ofList number.chars

def IsNegativeZero : Prop :=
  number.negative = true ∧ number.magnitude = 0

instance : Decidable number.IsNegativeZero :=
  inferInstanceAs (Decidable (_ ∧ _))

def json : Json :=
  if number.IsNegativeZero then .float (-(Float.ofInt 0)) else .int number.value

variable {number}

theorem digits_eq : number.digits = Decimal.natChars number.magnitude :=
  (Decimal.natChars_ofDigitChars number.areDigits number.filled number.plain).symm

theorem text_eq_intText (ordinary : ¬ number.IsNegativeZero) :
    number.text = Decimal.intText number.value := by
  rw [text, Decimal.intText]
  congr 1
  unfold chars value Decimal.intChars
  cases sign : number.negative with
  | true =>
    have filled : number.magnitude ≠ 0 := fun zero => ordinary ⟨sign, zero⟩
    rw [if_pos rfl, if_pos rfl, if_pos (by omega), Int.natAbs_neg, Int.natAbs_natCast, digits_eq]
  | false =>
    rw [if_neg Bool.false_ne_true, if_neg Bool.false_ne_true, if_neg (by omega),
      Int.natAbs_natCast, digits_eq]

theorem isNegativeZero_iff : number.IsNegativeZero ↔ number.text = "-0" := by
  have zero : number.magnitude = 0 ↔ number.digits = ['0'] := by
    constructor
    · intro zero
      rw [digits_eq, zero]
      rfl
    · intro spelled
      rw [magnitude, spelled]
      rfl
  rw [IsNegativeZero, zero, text, String.ofList_eq, chars]
  change _ ↔ _ = ['-', '0']
  cases sign : number.negative with
  | true => simp
  | false =>
    rw [if_neg Bool.false_ne_true]
    refine ⟨fun both => absurd both.1 Bool.false_ne_true, fun spelled => ?_⟩
    have digit := number.areDigits '-' (spelled ▸ List.mem_cons_self)
    exact absurd digit (by decide)

theorem natAbs_value (number : IntegerText) : number.value.natAbs = number.magnitude := by
  unfold value
  split
  · rw [Int.natAbs_neg, Int.natAbs_natCast]
  · exact Int.natAbs_natCast _

theorem readNumber_digits (low : -2 ^ 63 ≤ number.value) (high : number.value < 2 ^ 64) :
    readNumber number.negative number.digits = .ok (number.json, []) := by
  have fits : number.magnitude < wordBound := by
    rw [wordBound, ← natAbs_value]
    omega
  have spelled : Nat.ofDigitChars 10 number.digits 0 = number.magnitude := rfl
  rw [← List.append_nil number.digits,
    readNumber_whole number.areDigits number.filled number.plain spelled fits endsNumber_nil]
  by_cases zero : number.IsNegativeZero
  · rw [json, if_pos zero, zero.1, zero.2]
    rfl
  · rw [json, if_neg zero]
    cases sign : number.negative with
    | true =>
      have value : number.value = -(number.magnitude : Int) := if_pos sign
      have filled : number.magnitude ≠ 0 := fun none => zero ⟨sign, none⟩
      rw [if_neg (by decide), if_neg (by omega), value]
    | false =>
      have positive : ¬number.negative = true := Bool.eq_false_iff.mp sign
      have value : number.value = number.magnitude := if_neg positive
      rw [if_pos (by decide), value]

theorem read_text (low : -2 ^ 63 ≤ number.value) (high : number.value < 2 ^ 64) :
    read number.text = .ok number.json := by
  have digits := readNumber_digits low high
  have leaf : readValue depthLimit number.chars = .ok (number.json, []) := by
    unfold chars
    cases sign : number.negative with
    | true =>
      rw [sign] at digits
      rw [if_pos rfl, readValue_eq_readLeaf (by decide) (by decide) (by decide)]
      exact digits
    | false =>
      obtain ⟨c, cs, spelled⟩ := List.exists_cons_of_ne_nil number.filled
      have digit : c.isDigit = true := number.areDigits c (spelled ▸ List.mem_cons_self)
      obtain ⟨visible, list, object, -⟩ := starts_of_isDigit digit
      rw [sign, spelled] at digits
      rw [if_neg Bool.false_ne_true, spelled, readValue_eq_readLeaf visible list object,
        readLeaf_digit digit, digits]
  rw [read, readWhole, text, String.toList_ofList, leaf]
  rfl

theorem chars_spelled {c : Char} (member : c ∈ number.chars) : c.isDigit = true ∨ c = '-' := by
  unfold chars at member
  split at member
  · obtain rfl | digit := List.mem_cons.mp member
    · exact .inr rfl
    · exact .inl (number.areDigits c digit)
  · exact .inl (number.areDigits c member)

end IntegerText

/-- Something in the text of a float shows that it is one: a point, an exponent, or a name. -/
theorem exists_mark_in_write (x : Float) :
    ∃ c ∈ (floatStyle.write x).toList, c.isDigit = false ∧ c ≠ '-' := by
  have point : Char.isDigit '.' = false ∧ '.' ≠ '-' := by decide
  have mark : Char.isDigit 'e' = false ∧ 'e' ≠ '-' := by decide
  have scaled (n : Decimal.Scaled) :
      ∃ c ∈ floatStyle.writeScaled n, c.isDigit = false ∧ c ≠ '-' := by
    unfold Decimal.Style.writeScaled
    dsimp only
    split
    · split
      · exact ⟨'.', List.mem_append_right _ List.mem_cons_self, point⟩
      · exact ⟨'.', List.mem_append_right _ List.mem_cons_self, point⟩
    · exact ⟨'e', by simp, mark⟩
  have letter : Char.isDigit 'n' = false ∧ 'n' ≠ '-' := by decide
  unfold Decimal.Style.write
  split
  · exact ⟨'n', List.mem_cons_self, letter⟩
  · split
    · exact ⟨'n', List.mem_cons_of_mem _ List.mem_cons_self, letter⟩
    · exact ⟨'n', List.mem_cons_self, letter⟩
  · rename_i negative significand exponent parts
    have body : ∃ c ∈ (if significand = 0 then '0' :: floatStyle.wholeTail.toList
        else floatStyle.writeScaled (Decimal.shortest significand exponent)),
        c.isDigit = false ∧ c ≠ '-' := by
      split
      · exact ⟨'.', List.mem_cons_of_mem _ List.mem_cons_self, point⟩
      · exact scaled _
    obtain ⟨c, member, other⟩ := body
    refine ⟨c, ?_, other⟩
    dsimp only
    rw [String.toList_ofList]
    split
    · exact List.mem_cons_of_mem _ member
    · exact member

theorem compact_float_ne_text (x : Float) (number : IntegerText) :
    (float x).compact ≠ number.text := by
  intro same
  obtain ⟨c, member, noDigit, noSign⟩ := exists_mark_in_write x
  have chars : (floatStyle.write x).toList = number.chars := by
    simpa [compact, IntegerText.text, Json.chars] using congrArg String.toList same
  obtain digit | sign := IntegerText.chars_spelled (chars ▸ member)
  · rw [noDigit] at digit
    cases digit
  · exact noSign sign

end Tabular.Json
