import Tabular.Proofs.Decimal.Digits
import Tabular.Proofs.Decimal.Products
import Tabular.Proofs.Json.RoundTrip

/-!
# Numbers are read back

The text of a number is read as a number again, and which one it is does not depend on what stands
behind the text. A whole number is read as itself. A float is multiplied out from the digits that it
was written with, which may miss it by a little, but does not overflow.
-/

namespace Tabular

namespace Json

/-- The reader takes the text for a value, whatever follows that does not continue a number. -/
def Settles (reader : Reader Json) (text : List Char) : Prop :=
  ∃ value, ∀ rest, EndsNumber rest → reader (text ++ rest) = .ok (value, rest)

theorem EndsNumber.isDigitNext_eq_false {rest : List Char} (ends : EndsNumber rest) :
    isDigitNext rest = false := by
  cases rest with
  | nil => rfl
  | cons c rest => exact (ends c rfl).1

theorem isDigitNext_drop {cs : List Char} (digits : ∀ c ∈ cs, c.isDigit = true) {kept : Nat}
    (less : kept < cs.length) (rest : List Char) : isDigitNext (cs.drop kept ++ rest) = true := by
  rw [List.drop_eq_getElem_cons less]
  exact digits _ (List.getElem_mem less)

theorem dropWhile_isDigit_append {cs : List Char} (digits : ∀ c ∈ cs, c.isDigit = true)
    (kept : Nat) {rest : List Char} (ends : isDigitNext rest = false) :
    (cs.drop kept ++ rest).dropWhile Char.isDigit = rest := by
  rw [List.dropWhile_append_of_pos fun c member => digits c (List.mem_of_mem_drop member)]
  cases rest with
  | nil => rfl
  | cons c rest =>
    have stop : c.isDigit = false := ends
    rw [List.dropWhile_cons_of_neg (by simp [stop])]

section

variable {cs : List Char} (digits : ∀ c ∈ cs, c.isDigit = true)

include digits

theorem readDigits_append (bound n count : Nat) :
    ∃ kept ≤ cs.length,
      (∀ rest, isDigitNext rest = false → readDigits bound n count (cs ++ rest) =
        (Nat.ofDigitChars 10 (cs.take kept) n, count + kept, cs.drop kept ++ rest)) ∧
      (kept ≠ 0 → Nat.ofDigitChars 10 (cs.take kept) n < bound) ∧
      (kept = cs.length ∨ bound ≤ Nat.ofDigitChars 10 (cs.take (kept + 1)) n) := by
  induction cs generalizing n count with
  | nil =>
    refine ⟨0, Nat.le_refl 0, fun rest ends => ?_, fun more => absurd rfl more, .inl rfl⟩
    cases rest with
    | nil => rfl
    | cons c rest =>
      have stop : c.isDigit = false := ends
      rw [List.nil_append, readDigits, stop]
      rfl
  | cons c cs ih =>
    obtain ⟨here, later⟩ := List.forall_mem_cons.mp digits
    have next : 10 * n + (c.toNat - '0'.toNat) = n * 10 + (c.toNat - '0'.toNat) := by
      rw [Nat.mul_comm]
    by_cases fits : n * 10 + (c.toNat - '0'.toNat) < bound
    · obtain ⟨kept, inside, read, below, stop⟩ :=
        ih later (n * 10 + (c.toNat - '0'.toNat)) (count + 1)
      refine ⟨kept + 1, Nat.succ_le_succ inside, fun rest ends => ?_, fun _ => ?_, ?_⟩
      · rw [List.cons_append, readDigits, if_pos here]
        simp only [fits, if_true, read rest ends, List.take_succ_cons, List.drop_succ_cons,
          Nat.ofDigitChars_cons, next]
        rw [Nat.add_right_comm, Nat.add_assoc]
      · rw [List.take_succ_cons, Nat.ofDigitChars_cons, next]
        by_cases none : kept = 0
        · rw [none]
          exact fits
        · exact below none
      · rw [List.take_succ_cons, Nat.ofDigitChars_cons, next, List.length_cons]
        exact stop.imp_left (congrArg (· + 1))
    · refine ⟨0, Nat.zero_le _, fun rest _ => ?_, fun more => absurd rfl more, .inr ?_⟩
      · rw [List.cons_append, readDigits, if_pos here]
        simp only [fits, if_false]
        rfl
      · rw [List.take_succ_cons, Nat.ofDigitChars_cons, next]
        exact Nat.le_of_not_lt fits

theorem readDigits_of_lt {bound n : Nat} (fits : Nat.ofDigitChars 10 cs n < bound) (count : Nat)
    {rest : List Char} (ends : isDigitNext rest = false) :
    readDigits bound n count (cs ++ rest) =
      (Nat.ofDigitChars 10 cs n, count + cs.length, rest) := by
  obtain ⟨kept, inside, read, -, all | beyond⟩ := readDigits_append digits bound n count
  · rw [read rest ends, all, List.take_length, List.drop_length, List.nil_append]
  · obtain less | rfl := Nat.lt_or_eq_of_le inside
    · rw [Decimal.ofDigitChars_take digits] at beyond
      exact absurd fits (Nat.not_lt.mpr (beyond.trans (Nat.div_le_self _ _)))
    · rw [read rest ends, List.take_length, List.drop_length, List.nil_append]

end

section

variable {negative : Bool} {n : Nat} {exponent : Int} {cs whole fraction rest : List Char}

theorem exists_finishFloat (negative : Bool) (scales : Decimal.Scales (Float.ofNat n) exponent) :
    ∃ value, ∀ rest, finishFloat negative n exponent rest = .ok (value, rest) := by
  obtain ⟨y, scaled⟩ := scales
  refine ⟨float (negateIf negative y), fun rest => ?_⟩
  have word : Float.ofInt n = Float.ofNat n := rfl
  rw [finishFloat, word, scaled]
  rfl

theorem readFloatEnd_of_endsNumber (ends : EndsNumber rest) :
    readFloatEnd negative n exponent rest = finishFloat negative n exponent rest := by
  unfold readFloatEnd
  split
  · exact absurd (by decide) (ends 'e' rfl).2
  · exact absurd (by decide) (ends 'E' rfl).2
  · rfl

theorem readNumberEnd_of_endsNumber (ends : EndsNumber rest) :
    readNumberEnd negative n rest =
      if !negative then .ok (int n, rest)
      else if n = 0 ∨ 0x8000000000000000 < n then .ok (float (-(Float.ofInt n)), rest)
      else .ok (int (-(n : Int)), rest) := by
  unfold readNumberEnd
  split
  · exact absurd (by decide) (ends '.' rfl).2
  · exact absurd (by decide) (ends 'e' rfl).2
  · exact absurd (by decide) (ends 'E' rfl).2
  · rfl

/-- The digits behind the point move the exponent, as far as they fit; the others are dropped. -/
theorem readFraction_append (negative : Bool) (digits : ∀ c ∈ cs, c.isDigit = true)
    (filled : cs ≠ []) (room : n < 10 ^ 16) :
    ∃ dropped < cs.length, Nat.ofDigitChars 10 cs n / 10 ^ dropped < 2 ^ 64 ∧
      ∀ rest, isDigitNext rest = false →
        readFraction negative n 0 (cs ++ rest) =
          readFloatEnd negative (Nat.ofDigitChars 10 cs n / 10 ^ dropped) (dropped - cs.length)
            rest := by
  obtain ⟨kept, inside, read, below, stop⟩ := readDigits_append digits wordBound n 0
  have some : kept ≠ 0 := by
    rintro rfl
    obtain ⟨c, more, rfl⟩ := List.exists_cons_of_ne_nil filled
    have small := Decimal.digitValue_lt (digits c List.mem_cons_self)
    obtain none | beyond := stop
    · cases none
    · rw [List.take_succ_cons, Nat.ofDigitChars_cons, List.take_zero, Nat.ofDigitChars_nil,
        wordBound] at beyond
      omega
  have size := below some
  rw [Decimal.ofDigitChars_take digits] at size
  refine ⟨cs.length - kept, by omega, size, fun rest ends => ?_⟩
  have place : (0 : Int) - (0 + kept : Nat) = (cs.length - kept : Nat) - cs.length := by omega
  rw [readFraction, read rest ends, Decimal.ofDigitChars_take digits]
  simp only [place]
  obtain rfl | less := Nat.eq_or_lt_of_le inside
  · rw [List.drop_length, List.nil_append, ends, if_neg Bool.false_ne_true, if_neg (by omega)]
  · rw [if_pos (isDigitNext_drop digits less rest), dropWhile_isDigit_append digits kept ends]

theorem readNumber_append (digits : ∀ c ∈ whole, c.isDigit = true) (filled : whole ≠ [])
    (plain : whole.head? = some '0' → whole = ['0'])
    (fits : Nat.ofDigitChars 10 whole 0 < wordBound) (ends : isDigitNext rest = false) :
    readNumber negative (whole ++ rest) =
      readNumberEnd negative (Nat.ofDigitChars 10 whole 0) rest := by
  obtain ⟨c, more, rfl⟩ := List.exists_cons_of_ne_nil filled
  rw [List.cons_append, readNumber]
  by_cases zero : c = '0'
  · subst zero
    cases plain rfl
    rw [if_pos rfl, List.nil_append, ends, if_neg Bool.false_ne_true]
    rfl
  · have read := readDigits_of_lt digits fits 0 ends
    rw [List.cons_append] at read
    rw [if_neg zero, if_pos (digits c List.mem_cons_self), read]
    simp only [ends, Bool.false_eq_true, if_false]

theorem readNumber_whole (digits : ∀ c ∈ whole, c.isDigit = true) (filled : whole ≠ [])
    (plain : whole.head? = some '0' → whole = ['0'])
    (value : Nat.ofDigitChars 10 whole 0 = n) (small : n < wordBound) (ends : EndsNumber rest) :
    readNumber negative (whole ++ rest) =
      if !negative then .ok (int n, rest)
      else if n = 0 ∨ 0x8000000000000000 < n then .ok (float (-(Float.ofInt n)), rest)
      else .ok (int (-(n : Int)), rest) := by
  obtain rfl := value
  rw [readNumber_append digits filled plain small ends.isDigitNext_eq_false,
    readNumberEnd_of_endsNumber ends]

theorem readExponent_append (negative down : Bool) (n : Nat) (exponent : Int) (k : Nat)
    (rest : List Char) :
    readExponent negative n exponent
        ((if down then '-' else '+') :: Decimal.natChars k ++ rest) =
      let (m, _, behind) := readDigits exponentBound 0 0 (Decimal.natChars k ++ rest)
      if isDigitNext behind then
        if n ≠ 0 ∧ !down then .error (stopAt .numberOutOfRange (behind.drop 1))
        else .ok (float (negateIf negative 0), behind.dropWhile Char.isDigit)
      else finishFloat negative n (if down then exponent - m else exponent + m) behind := by
  obtain ⟨c, more, spelled⟩ := List.exists_cons_of_ne_nil (@Nat.toDigits_ne_nil k 10)
  have digit : c.isDigit = true :=
    Decimal.isDigit_of_mem_natChars (n := k) (by rw [Decimal.natChars, spelled]; simp)
  rw [Decimal.natChars, spelled]
  cases down <;> simp [readExponent, digit]

theorem exists_readExponent_down (negative : Bool) (n : Nat) {exponent : Int} (low : exponent ≤ 0)
    {k : Nat} (filled : k ≠ 0) :
    ∃ value, ∀ rest, EndsNumber rest →
      readExponent negative n exponent ('-' :: Decimal.natChars k ++ rest) = .ok (value, rest) := by
  have digits : ∀ c ∈ Decimal.natChars k, c.isDigit = true :=
    fun c member => Decimal.isDigit_of_mem_natChars member
  obtain ⟨kept, inside, read, -, stop⟩ := readDigits_append digits exponentBound 0 0
  have step (rest : List Char) := readExponent_append negative true n exponent k rest
  simp only [if_true, Bool.not_true, Bool.false_eq_true, and_false, if_false] at step
  obtain rfl | less := Nat.eq_or_lt_of_le inside
  · have value : Nat.ofDigitChars 10 (Decimal.natChars k) 0 = k := Nat.ofDigitChars_ten_toDigits
    obtain ⟨result, done⟩ := exists_finishFloat negative
      (Decimal.scales_of_neg (Float.ofNat n) (show exponent - (k : Int) < 0 by omega))
    refine ⟨result, fun rest ends => ?_⟩
    have stop := ends.isDigitNext_eq_false
    rw [step, read rest stop, List.take_length, value, List.drop_length, List.nil_append]
    simp only [stop, Bool.false_eq_true, if_false, done]
  · refine ⟨float (negateIf negative 0), fun rest ends => ?_⟩
    have stop := ends.isDigitNext_eq_false
    rw [step, read rest stop]
    simp only [isDigitNext_drop digits less rest, if_true,
      dropWhile_isDigit_append digits kept stop]

theorem exists_readExponent_up (negative : Bool) {exponent : Int} {k : Nat} (reach : k ≤ 308)
    (scales : Decimal.Scales (Float.ofNat n) (exponent + k)) :
    ∃ value, ∀ rest, EndsNumber rest →
      readExponent negative n exponent ('+' :: Decimal.natChars k ++ rest) = .ok (value, rest) := by
  have digits : ∀ c ∈ Decimal.natChars k, c.isDigit = true :=
    fun c member => Decimal.isDigit_of_mem_natChars member
  have value : Nat.ofDigitChars 10 (Decimal.natChars k) 0 = k := Nat.ofDigitChars_ten_toDigits
  have fits : Nat.ofDigitChars 10 (Decimal.natChars k) 0 < exponentBound := by
    rw [value, exponentBound]
    omega
  obtain ⟨result, done⟩ := exists_finishFloat negative scales
  refine ⟨result, fun rest ends => ?_⟩
  have step := readExponent_append negative false n exponent k rest
  have stop := ends.isDigitNext_eq_false
  rw [readDigits_of_lt digits fits 0 stop, value] at step
  simp only [stop, Bool.false_eq_true, if_false, done] at step
  exact step

theorem settles_point (negative : Bool) (wholeDigits : ∀ c ∈ whole, c.isDigit = true)
    (filled : whole ≠ []) (plain : whole.head? = some '0' → whole = ['0'])
    (short : whole.length ≤ 16) (digits : ∀ c ∈ fraction, c.isDigit = true)
    (pointed : fraction ≠ []) : Settles (readNumber negative) (whole ++ '.' :: fraction) := by
  have small := (Decimal.ofDigitChars_lt wholeDigits).trans_le
    (Nat.pow_le_pow_right (by decide) short)
  have fits : Nat.ofDigitChars 10 whole 0 < wordBound := small.trans (by decide)
  obtain ⟨dropped, less, -, read⟩ := readFraction_append negative digits pointed small
  obtain ⟨value, done⟩ := exists_finishFloat negative
    (Decimal.scales_of_neg (Float.ofNat (Nat.ofDigitChars 10 fraction
      (Nat.ofDigitChars 10 whole 0) / 10 ^ dropped)) (e := dropped - fraction.length) (by omega))
  refine ⟨value, fun rest ends => ?_⟩
  have behind : readNumberEnd negative (Nat.ofDigitChars 10 whole 0) ('.' :: (fraction ++ rest)) =
      readFraction negative (Nat.ofDigitChars 10 whole 0) 0 (fraction ++ rest) := rfl
  rw [List.append_assoc, List.cons_append,
    readNumber_append wholeDigits filled plain fits rfl, behind,
    read rest ends.isDigitNext_eq_false, readFloatEnd_of_endsNumber ends, done]

theorem exists_readExponent (negative : Bool) {exponent scientific : Int} (low : exponent ≤ 0)
    (high : 0 ≤ scientific → scientific ≤ 308 ∧
      Decimal.Scales (Float.ofNat n) (exponent + scientific)) :
    ∃ value, ∀ rest, EndsNumber rest →
      readExponent negative n exponent
        ((if scientific < 0 then "" else "+").toList ++ Decimal.intChars scientific ++ rest) =
          .ok (value, rest) := by
  by_cases below : scientific < 0
  · rw [if_pos below, Decimal.intChars, if_pos below]
    exact exists_readExponent_down negative n low (by omega)
  · obtain ⟨reach, scales⟩ := high (by omega)
    have place : (scientific.natAbs : Int) = scientific := Int.natAbs_of_nonneg (by omega)
    rw [if_neg below, Decimal.intChars, if_neg below]
    exact exists_readExponent_up negative (by omega) (by rwa [place])

theorem settles_scientific (negative : Bool) (filled : n ≠ 0) {scientific : Int}
    (high : 0 ≤ scientific → scientific ≤ 308 ∧ ∀ dropped : Nat, n / 10 ^ dropped < 2 ^ 64 →
      Decimal.Scales (Float.ofNat (n / 10 ^ dropped))
        (dropped - ((Decimal.natChars n).length - 1 : Nat) + scientific)) :
    Settles (readNumber negative)
      ((match Decimal.natChars n with
        | [] | [_] => Decimal.natChars n
        | d :: more => d :: '.' :: more) ++
        'e' :: (if scientific < 0 then "" else "+").toList ++ Decimal.intChars scientific) := by
  have digits : ∀ c ∈ Decimal.natChars n, c.isDigit = true :=
    fun c member => Decimal.isDigit_of_mem_natChars member
  have value : Nat.ofDigitChars 10 (Decimal.natChars n) 0 = n := Nat.ofDigitChars_ten_toDigits
  have plain := Decimal.head?_natChars_ne filled
  obtain ⟨d, more, spelled⟩ := List.exists_cons_of_ne_nil (@Nat.toDigits_ne_nil n 10)
  change Decimal.natChars n = d :: more at spelled
  rw [spelled] at digits value plain high ⊢
  obtain ⟨first, behind⟩ := List.forall_mem_cons.mp digits
  have alone : ∀ c ∈ [d], c.isDigit = true := List.forall_mem_singleton.mpr first
  have single : Nat.ofDigitChars 10 [d] 0 < 10 ^ 1 := Decimal.ofDigitChars_lt alone
  have fits : Nat.ofDigitChars 10 [d] 0 < wordBound := single.trans (by decide)
  have start (rest : List Char) (ends : isDigitNext rest = false) :
      readNumber negative (d :: rest) = readNumberEnd negative (Nat.ofDigitChars 10 [d] 0) rest :=
    readNumber_append alone (List.cons_ne_nil _ _) (fun zero => absurd zero plain) fits ends
  cases more with
  | nil =>
    have small : n < 10 := value ▸ single
    obtain ⟨result, done⟩ := exists_readExponent (n := n) negative (Int.le_refl 0)
      fun up => ⟨(high up).1, by simpa using (high up).2 0 (by omega)⟩
    refine ⟨result, fun rest ends => ?_⟩
    have text := done rest ends
    simp only [List.append_assoc, List.cons_append, List.nil_append] at text ⊢
    rw [start _ rfl, value]
    exact text
  | cons d' more =>
    obtain ⟨dropped, less, size, read⟩ := readFraction_append negative behind
      (List.cons_ne_nil _ _) (single.trans (by decide))
    have whole : Nat.ofDigitChars 10 (d' :: more) (Nat.ofDigitChars 10 [d] 0) = n := by
      rw [← Nat.ofDigitChars_append]
      exact value
    rw [whole] at size read
    have low : (dropped : Int) - (d' :: more).length ≤ 0 := by omega
    obtain ⟨result, done⟩ := exists_readExponent (n := n / 10 ^ dropped) negative low
      fun up => ⟨(high up).1, (high up).2 dropped size⟩
    refine ⟨result, fun rest ends => ?_⟩
    have text := done rest ends
    simp only [List.append_assoc, List.cons_append] at text ⊢
    exact (start _ rfl).trans ((read _ rfl).trans text)

theorem settles_whole (negative : Bool) (filled : n ≠ 0) {zeros : Nat}
    (short : (Decimal.natChars n).length + zeros ≤ 16) :
    Settles (readNumber negative)
      (Decimal.natChars n ++ List.replicate zeros '0' ++ floatStyle.wholeTail.toList) := by
  have some : Decimal.natChars n ≠ [] := Nat.toDigits_ne_nil
  have plain := Decimal.head?_natChars_ne filled
  rw [show floatStyle.wholeTail.toList = ['.', '0'] from rfl]
  apply settles_point
  · intro c member
    obtain digit | zero := List.mem_append.mp member
    · exact Decimal.isDigit_of_mem_natChars digit
    · rw [List.eq_of_mem_replicate zero]
      decide
  · exact List.append_ne_nil_of_left_ne_nil some _
  · intro zero
    obtain ⟨c, more, spelled⟩ := List.exists_cons_of_ne_nil some
    rw [spelled] at zero plain
    exact absurd zero plain
  · rwa [List.length_append, List.length_replicate]
  · intro c member
    rw [List.mem_singleton.mp member]
    decide
  · exact List.cons_ne_nil _ _

theorem settles_pointed (negative : Bool) (filled : n ≠ 0) {places : Nat} (some : places ≠ 0)
    (short : (Decimal.natChars n).length ≤ 16 + places) :
    Settles (readNumber negative) (Decimal.pointed (Decimal.natChars n) places) := by
  have nonempty : 0 < (Decimal.natChars n).length := Nat.length_toDigits_pos
  have plain := Decimal.head?_natChars_ne filled
  have digits : ∀ c ∈ List.replicate (places + 1 - (Decimal.natChars n).length) '0' ++
      Decimal.natChars n, c.isDigit = true := by
    intro c member
    obtain zero | digit := List.mem_append.mp member
    · rw [List.eq_of_mem_replicate zero]
      decide
    · exact Decimal.isDigit_of_mem_natChars digit
  rw [Decimal.pointed]
  apply settles_point
  · exact fun c member => digits c (List.mem_of_mem_take member)
  · apply List.ne_nil_of_length_pos
    simp only [List.length_take, List.length_append, List.length_replicate]
    omega
  · intro zero
    by_cases inside : places < (Decimal.natChars n).length
    · have bare : places + 1 - (Decimal.natChars n).length = 0 := by omega
      obtain ⟨kept, some⟩ := Nat.exists_eq_succ_of_ne_zero
        (show (Decimal.natChars n).length - places ≠ 0 by omega)
      rw [bare, List.replicate_zero, List.nil_append, some, List.head?_take,
        if_neg (Nat.succ_ne_zero kept)] at zero
      exact absurd zero plain
    · obtain ⟨zeros, padded⟩ := Nat.exists_eq_succ_of_ne_zero
        (show places + 1 - (Decimal.natChars n).length ≠ 0 by omega)
      have one : (List.replicate (places + 1 - (Decimal.natChars n).length) '0' ++
          Decimal.natChars n).length - places = 1 := by
        rw [List.length_append, List.length_replicate]
        omega
      rw [one, padded, List.replicate_succ]
      rfl
  · simp only [List.length_take, List.length_append, List.length_replicate]
    omega
  · exact fun c member => digits c (List.mem_of_mem_drop member)
  · apply List.ne_nil_of_length_pos
    simp only [List.length_drop, List.length_append, List.length_replicate]
    omega

end

/-- The shortest decimal of a float is read without overflow. -/
theorem settles_writeScaled (negative : Bool) {significand : Nat} {exponent : Int}
    (filled : significand ≠ 0) (small : significand < 2 ^ 53) (most : exponent ≤ 971) :
    Settles (readNumber negative)
      (floatStyle.writeScaled (Decimal.shortest significand exponent)) := by
  have some := Decimal.shortest_digits_ne_zero filled exponent
  have low := Decimal.pow_length_natChars_le some
  have reach := @Decimal.exponent_add_le _ _ small most
    ((Decimal.natChars (Decimal.shortest significand exponent).digits).length - 1)
  have scales := fun dropped => @Decimal.scales_shortest _ _ small most dropped
  generalize Decimal.shortest significand exponent = number at some low reach scales ⊢
  have nonempty : 0 < (Decimal.natChars number.digits).length := Nat.length_toDigits_pos
  have digits : ∀ c ∈ Decimal.natChars number.digits, c.isDigit = true :=
    fun c member => Decimal.isDigit_of_mem_natChars member
  unfold Decimal.Style.writeScaled
  dsimp only
  split
  · rename_i plain
    obtain ⟨-, top⟩ := plain
    change _ ≤ (15 : Int) at top
    split
    · apply settles_whole negative some
      omega
    · apply settles_pointed negative some <;> omega
  · rename_i far
    apply settles_scientific negative some
    intro up
    have lead := reach (Nat.div_pos low (Nat.pow_pos (by decide))).ne'
    refine ⟨by omega, fun dropped size => ?_⟩
    have place : (dropped : Int) - ((Decimal.natChars number.digits).length - 1 : Nat) +
        (number.exponent + (Decimal.natChars number.digits).length - 1) =
          number.exponent + dropped := by omega
    rw [place]
    exact scales dropped size

theorem readLeaf_digit {c : Char} (digit : c.isDigit = true) (cs : List Char) :
    readLeaf (c :: cs) = readNumber false (c :: cs) := by
  unfold readLeaf
  dsimp only
  split
  · cases digit
  · cases digit
  · cases digit
  · cases digit
  · cases digit
  · rw [if_pos digit]

theorem starts_of_isDigit {c : Char} (digit : c.isDigit = true) :
    isSpace c = false ∧ c ≠ '[' ∧ c ≠ '\x7b' ∧ c ≠ ']' := by
  refine ⟨?_, ?_, ?_, ?_⟩
  · simp only [isSpace, Bool.or_eq_false_iff, beq_eq_false_iff_ne]
    refine ⟨⟨⟨?_, ?_⟩, ?_⟩, ?_⟩ <;> rintro rfl <;> cases digit
  all_goals rintro rfl; cases digit

theorem takenBy_number {value result : Json} {negative : Bool} {text : List Char}
    (spelled : value.chars = if negative then '-' :: text else text)
    (read : ∀ rest, EndsNumber rest → readNumber negative (text ++ rest) = .ok (result, rest))
    (depth : Nat) : TakenBy (readValue depth) value result := by
  obtain ⟨c, cs, rfl, digit⟩ : ∃ c cs, text = c :: cs ∧ c.isDigit = true := by
    have alone := read [] endsNumber_nil
    cases text with
    | nil => cases alone
    | cons c cs =>
      refine ⟨c, cs, rfl, ?_⟩
      by_contra other
      rw [List.append_nil, readNumber, if_neg (by rintro rfl; exact other rfl), if_neg other]
        at alone
      cases alone
  obtain ⟨visible, list, object, noEnd⟩ := starts_of_isDigit digit
  cases negative with
  | true =>
    refine ⟨⟨'-', c :: cs, spelled, by decide, by decide⟩, fun rest ends => ?_⟩
    rw [spelled, if_pos rfl, List.cons_append,
      readValue_eq_readLeaf (by decide) (by decide) (by decide)]
    exact read rest ends
  | false =>
    refine ⟨⟨c, cs, spelled, visible, noEnd⟩, fun rest ends => ?_⟩
    have taken := read rest ends
    rw [spelled, if_neg Bool.false_ne_true]
    rw [List.cons_append] at taken ⊢
    rw [readValue_eq_readLeaf visible list object, readLeaf_digit digit, taken]

theorem exists_takenBy_float {x : Float} (finite : x.isFinite = true) :
    ∃ result, ∀ depth, TakenBy (readValue depth) (.float x) result := by
  obtain ⟨negative, significand, exponent, parts, small, most⟩ :=
    Decimal.exists_parts_of_isFinite finite
  by_cases zero : significand = 0
  · obtain ⟨result, read⟩ := @settles_point ['0'] ['0'] negative (by simp) (by simp) (by simp)
      (by simp) (by simp) (by simp)
    refine ⟨result, takenBy_number ?_ read⟩
    rw [chars, Decimal.Style.write, parts]
    simp only [zero, if_true, String.toList_ofList]
    rfl
  · obtain ⟨result, read⟩ := settles_writeScaled negative zero small most
    refine ⟨result, takenBy_number ?_ read⟩
    rw [chars, Decimal.Style.write, parts]
    simp only [zero, if_false, String.toList_ofList]

theorem takenBy_int {n : Int} (low : -2 ^ 63 ≤ n) (high : n < 2 ^ 64) (depth : Nat) :
    TakenBy (readValue depth) (.int n) (.int n) := by
  have value : Nat.ofDigitChars 10 (Decimal.natChars n.natAbs) 0 = n.natAbs :=
    Nat.ofDigitChars_ten_toDigits
  have plain : (Decimal.natChars n.natAbs).head? = some '0' →
      Decimal.natChars n.natAbs = ['0'] := by
    intro zero
    by_cases none : n.natAbs = 0
    · rw [none]
      rfl
    · exact absurd zero (Decimal.head?_natChars_ne none)
  have spelled : (int n).chars = if decide (n < 0) = true then '-' :: Decimal.natChars n.natAbs
      else Decimal.natChars n.natAbs := by
    rw [chars, Decimal.intChars]
    simp only [decide_eq_true_eq]
  have read (rest : List Char) (ends : EndsNumber rest) :
      readNumber (decide (n < 0)) (Decimal.natChars n.natAbs ++ rest) = .ok (int n, rest) := by
    rw [readNumber_whole (fun c member => Decimal.isDigit_of_mem_natChars member)
      Nat.toDigits_ne_nil plain value (by rw [wordBound]; omega) ends]
    by_cases below : n < 0
    · rw [decide_eq_true below, if_neg (by decide), if_neg (by omega)]
      congr 3
      omega
    · rw [decide_eq_false below, if_pos (by decide)]
      congr 3
      omega
  exact takenBy_number spelled read depth

end Json

end Tabular
