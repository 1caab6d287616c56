import Mathlib.Data.List.TakeWhile
import Tabular.Decimal.Numeral
import Tabular.Proofs.Decimal.Arithmetic
import Tabular.Proofs.Decimal.Digits

/-!
# Numbers that are read back

The text of a word is read as the float nearest to it, and that of a number with two places after
the point as the float nearest to its hundredths.
-/

namespace Tabular.Decimal

section

variable {c : Char} {cs front back : List Char} {negative : Bool}

theorem readNumeral?_of_isDigit (known : readSign front = (negative, c :: cs))
    (digit : c.isDigit = true) :
    readNumeral? front = (readMagnitude? (c :: cs)).map fun x =>
      .number (if negative then -x else x) := by
  have same : c.toLower = c := by
    have bounds := Char.isDigit_iff_toNat.mp digit
    have low : ¬(c.val ≥ 'A'.val ∧ c.val ≤ 'Z'.val) := by
      rintro ⟨above, -⟩
      have above : 65 ≤ c.toNat := above
      have below : c.toNat ≤ 57 := bounds.2
      omega
    exact dif_neg low
  have plain {name : Char} {rest : List Char} (letter : name.isDigit = false) :
      lowerAscii (c :: cs) ≠ name :: rest := by
    intro spelled
    rw [lowerAscii, List.map_cons, same] at spelled
    rw [(List.cons.inj spelled).1, letter] at digit
    cases digit
  rw [readNumeral?, known]
  dsimp only
  rw [if_neg, if_neg]
  · exact plain (by decide)
  · rintro (short | long)
    · exact plain (by decide) short
    · exact plain (by decide) long

theorem readMagnitude?_of_digits (filled : cs ≠ []) (digits : ∀ c ∈ cs, c.isDigit = true) :
    readMagnitude? cs = some (nearest (Nat.ofDigitChars 10 cs 0) 0) := by
  have whole : cs.takeWhile Char.isDigit = cs := List.takeWhile_eq_self_iff.mpr digits
  have rest : cs.dropWhile Char.isDigit = [] := List.dropWhile_eq_nil_iff.mpr digits
  simp [readMagnitude?, whole, rest, filled, readExponent?]

theorem readMagnitude?_of_point (filled : front ≠ []) (digits : ∀ c ∈ front, c.isDigit = true)
    (digitsToo : ∀ c ∈ back, c.isDigit = true) :
    readMagnitude? (front ++ '.' :: back) =
      some (nearest (Nat.ofDigitChars 10 (front ++ back) 0) (-back.length)) := by
  have whole : (front ++ '.' :: back).takeWhile Char.isDigit = front := by
    rw [List.takeWhile_append_of_pos digits, List.takeWhile_cons_of_neg (by decide),
      List.append_nil]
  have rest : (front ++ '.' :: back).dropWhile Char.isDigit = '.' :: back := by
    rw [List.dropWhile_append_of_pos digits, List.dropWhile_cons_of_neg (by decide)]
  have fraction : back.takeWhile Char.isDigit = back := List.takeWhile_eq_self_iff.mpr digitsToo
  have none : back.dropWhile Char.isDigit = [] := List.dropWhile_eq_nil_iff.mpr digitsToo
  simp [readMagnitude?, whole, rest, fraction, none, filled, readExponent?]

end

section

variable {n : Nat}

theorem nearest_whole (reached : (natChars n).length ≤ 400) : nearest n 0 = Float.ofNat n := by
  unfold nearest
  split_ifs with zero
  · rw [zero]
    rfl
  · dsimp only
    rw [exponentReach, if_neg (by omega), if_neg (by omega)]
    rfl

theorem denotes_hundred : Denotes Float.exactlyRepresentablePowersOfTen[2] 100 := by
  have model : Float.exactlyRepresentablePowersOfTen[2] =
      .ofModel (Float.Model.pack (.finite .positive (100 * 2 ^ 46) (-46) (by decide))) := rfl
  have value : signed .positive ((100 * 2 ^ 46 : Nat) * 2 ^ (-46 : Int)) = 100 := by
    norm_num [signed]
  rw [model, ← value]
  exact .finite .positive _ (by decide) (by decide) (by decide) (by decide)

theorem denotes_nearest_hundredths (small : n < 2 ^ 64) :
    Denotes (nearest n (-2)) (rounded (n / 100)) := by
  unfold nearest
  split_ifs with zero
  · rw [zero, Nat.cast_zero, zero_div, rounded_zero]
    exact .zero .positive
  have few : (natChars n).length ≤ 20 :=
    (Nat.length_toDigits_le_iff (by decide) (by decide)).mpr (small.trans (by decide))
  have one : (1 : ℚ) ≤ n := by exact_mod_cast Nat.one_le_iff_ne_zero.mpr zero
  have hundredth : (2 : ℚ) ^ (-7 : Int) ≤ n / 100 := by
    rw [show (2 : ℚ) ^ (-7 : Int) = 1 / 128 by norm_num]
    linarith
  have large : (2 : ℚ) ^ (-1021 : Int) ≤ n / 100 :=
    (zpow_le_zpow_right₀ one_le_two (by decide)).trans hundredth
  have size : |(n / 100 : ℚ)| = n / 100 := abs_of_nonneg (by positivity)
  have inside : InRange (n / 100) := by
    refine ⟨.inr ?_, ?_⟩
    · rw [size]
      exact (zpow_le_zpow_right₀ one_le_two (by decide)).trans hundredth
    · have below : (n : ℚ) ≤ 2 ^ 64 := by exact_mod_cast small.le
      have rounds : |rounded (n / 100)| ≤ 2 ^ 64 := abs_rounded_le (by rw [size]; linarith)
      exact rounds.trans_lt (pow_lt_pow_right₀ one_lt_two (by decide))
  dsimp only
  rw [exponentReach, if_neg (by omega), if_neg (by omega),
    show decide ((-2 : Int) < 0) = true from rfl, show (-2 : Int).natAbs = 2 from rfl,
    Float.ofScientific]
  split
  · rename_i exact
    have same : rounded n = n := by
      have bits : |(n : Int)| ≤ 2 ^ 53 := by
        rw [Nat.abs_cast]
        exact_mod_cast exact.1.le
      exact_mod_cast rounded_intCast bits
    have count := denotes_toFloat small
    rw [same] at count
    exact count.div denotes_hundred (by linarith) (by norm_num) inside large
  · have value : (n * 2 ^ (0 : Int) / ((10 ^ 2 : Nat) * 2 ^ (0 : Int)) : ℚ) = n / 100 := by norm_num
    have slow : Float.Model.UnpackedFloat.ofScientific .binary64 n (-2) =
        .div .binary64 (.finite .positive n 0 (Nat.pos_of_ne_zero zero))
          (.finite .positive (10 ^ 2) 0 (by decide)) := by
      have reaches :
          ¬ (-2 : Int) < -((2 : Int) ^ Float.Model.Format.binary64.exponentBits + n.log2) := by
        change ¬ (-2 : Int) < -((2 : Int) ^ 11 + n.log2)
        omega
      rw [Float.Model.UnpackedFloat.ofScientific, dif_neg zero, if_neg (by decide), if_neg reaches,
        if_neg (by decide)]
      rfl
    rw [← value] at inside large ⊢
    have quotient := denotes_div (Nat.pos_of_ne_zero zero) (by decide) inside large
    rw [← slow] at quotient
    exact quotient

end

section

variable {x : Float} {q : ℚ} {c : Char} {cs text : List Char} {negative : Bool} {n : Nat}

theorem Denotes.isFinite (denoted : Denotes x q) : x.isFinite = true := by
  have model (m : Float.Model) : (Float.ofModel m).isFinite = m.unpack.isFinite := rfl
  cases denoted with
  | zero sign =>
    rw [model, unpack_zero]
    rfl
  | finite sign positive low high least most =>
    rw [model, unpack_pack positive sign low high least most]
    rfl

theorem exists_readFinite? (known : readSign text = (negative, c :: cs)) (digit : c.isDigit = true)
    (read : readMagnitude? (c :: cs) = some x) (denoted : Denotes x q) :
    ∃ y, readFinite? text = some y ∧ Denotes y (if negative then -q else q) := by
  have either : Denotes (if negative then -x else x) (if negative then -q else q) := by
    cases negative with
    | false => exact denoted
    | true => exact denoted.neg
  refine ⟨_, ?_, either⟩
  rw [readFinite?, readFloat?, readNumeral?_of_isDigit known digit, read, Option.map_some,
    Option.map_some, Option.filter_some, Numeral.toFloat, if_pos either.isFinite]

theorem exists_readFinite?_of_digits (known : readSign text = (negative, cs)) (filled : cs ≠ [])
    (digits : ∀ c ∈ cs, c.isDigit = true) (value : Nat.ofDigitChars 10 cs 0 = n)
    (reached : (natChars n).length ≤ 400) (inside : InRange n) :
    ∃ y, readFinite? text = some y ∧ Denotes y (rounded (if negative then -n else n : Int)) := by
  obtain ⟨c, cs, rfl⟩ := List.exists_cons_of_ne_nil filled
  have read := readMagnitude?_of_digits filled digits
  rw [value, nearest_whole reached] at read
  obtain ⟨y, found, denoted⟩ :=
    exists_readFinite? known (digits c List.mem_cons_self) read (denotes_ofNat inside)
  refine ⟨y, found, ?_⟩
  cases negative with
  | false => exact denoted
  | true =>
    rw [if_pos rfl, Int.cast_neg, rounded_neg]
    exact denoted

/-- The text of a word is also a numeral, and it denotes the float of the word. -/
theorem exists_readFinite?_of_readWord? {w : Int64} (read : readWord? text = some w) :
    ∃ x, readFinite? text = some x ∧ Denotes x (rounded w.toInt) := by
  obtain ⟨m, whole, word⟩ := Option.bind_eq_some_iff.mp read
  obtain ⟨negative, cs, n, known, filled, digits, value, rfl⟩ := exists_of_readInt? whole
  have same := toInt_of_word?_eq_some word
  have least := Int64.le_toInt w
  have most := Int64.toInt_lt w
  have small : n ≤ 2 ^ 63 := by
    split at same <;> omega
  have short : (natChars n).length ≤ 19 :=
    (Nat.length_toDigits_le_iff (by decide) (by decide)).mpr (small.trans_lt (by decide))
  have reached : (natChars n).length ≤ 400 := short.trans (by decide)
  have inside : InRange ((n : Int) : ℚ) :=
    inRange_of_abs_le 63 (by rw [Nat.abs_cast]; exact_mod_cast small) (by decide)
  rw [same]
  exact exists_readFinite?_of_digits known filled digits value reached inside

end

section

variable {x : Float} {q : ℚ} {significand : Nat} {exponent : Int}

theorem hundredths_of_nonneg (significand : Nat) (whole : 0 ≤ exponent) :
    hundredths significand exponent = 100 * (significand * 2 ^ exponent.toNat) := by
  obtain ⟨places, rfl⟩ := Int.eq_ofNat_of_zero_le whole
  have value : (100 * (significand * 2 ^ (places : Int)) : ℚ) =
      (100 * (significand * 2 ^ places) : Int) := by
    push_cast
    rw [zpow_natCast]
  have exact := hundredths_eq significand places
  rw [value, nearestEven_intCast] at exact
  exact_mod_cast exact

theorem hundredths_le_of_neg (significand : Nat) (fraction : exponent < 0) :
    hundredths significand exponent ≤ 50 * significand := by
  have half : (2 : ℚ) ^ exponent ≤ 2 ^ (-1 : Int) := zpow_le_zpow_right₀ one_le_two (by omega)
  have bounded : nearestEven (100 * (significand * 2 ^ exponent)) ≤ (50 * significand : Nat) := by
    apply nearestEven_le
    have product := mul_le_mul_of_nonneg_left half (Nat.cast_nonneg significand : (0 : ℚ) ≤ _)
    rw [zpow_neg_one] at product
    push_cast
    linarith
  rw [← hundredths_eq] at bounded
  exact Int.ofNat_le.mp bounded

theorem rounded_hundreds (small : significand < 2 ^ 53) (most : exponent ≤ 971) {n : Nat}
    (hundreds : hundredths significand exponent = 100 * n) : rounded n = n ∧ n < 2 ^ 1024 := by
  obtain whole | fraction := le_or_gt 0 exponent
  · obtain ⟨places, rfl⟩ := Int.eq_ofNat_of_zero_le whole
    have exact := hundredths_of_nonneg significand whole
    obtain rfl : n = significand * 2 ^ places := by
      rw [hundreds] at exact
      exact Nat.eq_of_mul_eq_mul_left (by decide) exact
    constructor
    · have bits : |(significand : Int)| ≤ 2 ^ 53 := by
        rw [Nat.abs_cast]
        exact_mod_cast small.le
      have same := rounded_eq_self (e := places) bits
      rw [zpow_natCast] at same
      exact_mod_cast same
    · calc significand * 2 ^ places < 2 ^ 53 * 2 ^ places :=
            Nat.mul_lt_mul_of_pos_right small (Nat.two_pow_pos _)
        _ = 2 ^ (53 + places) := (Nat.pow_add 2 53 places).symm
        _ ≤ 2 ^ 1024 := by
            have room : 53 + places ≤ 1024 := by omega
            gcongr
            decide
  · have below := hundredths_le_of_neg significand fraction
    have bits : |(n : Int)| ≤ 2 ^ 53 := by
      rw [Nat.abs_cast]
      exact_mod_cast (by omega : n ≤ 2 ^ 53)
    have top : 2 ^ 53 < 2 ^ 1024 := pow_lt_pow_right₀ (by decide) (by decide)
    exact ⟨by exact_mod_cast rounded_intCast bits, (show n ≤ 2 ^ 53 by omega).trans_lt top⟩

theorem exists_pointed (n places : Nat) :
    ∃ front back, pointed (natChars n) places = front ++ '.' :: back ∧ front ≠ [] ∧
      back.length = places ∧ (∀ c ∈ front ++ back, c.isDigit = true) ∧
      Nat.ofDigitChars 10 (front ++ back) 0 = n := by
  have long : places + 1 ≤ (List.replicate (places + 1 - (natChars n).length) '0' ++
      natChars n).length := by
    rw [List.length_append, List.length_replicate]
    omega
  have value : Nat.ofDigitChars 10 (List.replicate (places + 1 - (natChars n).length) '0' ++
      natChars n) 0 = n := by
    rw [Nat.ofDigitChars_append, Nat.ofDigitChars_replicate_zero, Nat.mul_zero, natChars,
      Nat.ofDigitChars_ten_toDigits]
  have digits : ∀ c ∈ List.replicate (places + 1 - (natChars n).length) '0' ++ natChars n,
      c.isDigit = true := by
    intro c member
    obtain zero | digit := List.mem_append.mp member
    · rw [List.eq_of_mem_replicate zero]
      decide
    · exact isDigit_of_mem_natChars digit
  unfold pointed
  generalize List.replicate (places + 1 - (natChars n).length) '0' ++ natChars n = padded at *
  refine ⟨padded.take (padded.length - places), padded.drop (padded.length - places), rfl, ?_, ?_,
    ?_, ?_⟩
  · apply List.ne_nil_of_length_pos
    rw [List.length_take]
    omega
  · rw [List.length_drop]
    omega
  · rwa [List.take_append_drop]
  · rwa [List.take_append_drop]

theorem readSign_twoPlaces {negative : Bool} {c : Char} {cs : List Char}
    (known : parts x = .finite negative significand exponent)
    (body : (if hundredths significand exponent % 100 = 0 then
      natChars (hundredths significand exponent / 100)
        else pointed (natChars (hundredths significand exponent)) 2) = c :: cs)
    (digit : c.isDigit = true) : readSign (twoPlaces x).toList = (negative, c :: cs) := by
  unfold twoPlaces
  rw [known]
  dsimp only
  rw [body, String.toList_ofList]
  cases negative with
  | false => exact readSign_of_isDigit digit
  | true => rfl

theorem le_of_parts {negative : Bool} (known : parts x = .finite negative significand exponent) :
    exponent ≤ 971 := by
  have powers : Nat.pow 2 52 = 2 ^ 52 ∧ Nat.pow 2 11 = 2 ^ 11 := ⟨rfl, rfl⟩
  simp only [parts, powers] at known
  generalize x.toBits.toNat = bits at known
  split at known
  · split at known <;> cases known
  split at known
  · cases known
    decide
  · cases known
    omega

/-- A text of hundredths: a sign and a whole number of 53 bits, or a sign and digits around a
point. -/
inductive SpellsHundredths (text : List Char) : ℚ → Prop
  | whole {negative : Bool} {n : Nat} (known : readSign text = (negative, natChars n))
      (same : rounded n = n) (bounded : n < 2 ^ 1024) :
      SpellsHundredths text (if negative then -(n : Int) else n : Int)
  | point {negative : Bool} {n : Nat} {front back : List Char}
      (known : readSign text = (negative, front ++ '.' :: back)) (filled : front ≠ [])
      (places : back.length = 2) (digits : ∀ c ∈ front ++ back, c.isDigit = true)
      (value : Nat.ofDigitChars 10 (front ++ back) 0 = n) (small : n < 2 ^ 64) :
      SpellsHundredths text (if negative then -((n : ℚ) / 100) else (n : ℚ) / 100)

theorem spellsHundredths_of_parts {negative : Bool}
    (known : parts x = .finite negative significand exponent) :
    SpellsHundredths (twoPlaces x).toList
      ((if negative then -(hundredths significand exponent : ℚ)
        else hundredths significand exponent) / 100) := by
  obtain ⟨-, -, small, -⟩ := rank_of_parts known
  by_cases hundreds : hundredths significand exponent % 100 = 0
  · obtain ⟨n, product⟩ := Nat.dvd_of_mod_eq_zero hundreds
    obtain ⟨same, bounded⟩ := rounded_hundreds small (le_of_parts known) product
    obtain ⟨c, cs, spelled⟩ := List.exists_cons_of_ne_nil (@Nat.toDigits_ne_nil n 10)
    have digit : c.isDigit = true := isDigit_of_mem_natChars (spelled ▸ List.mem_cons_self)
    have text : readSign (twoPlaces x).toList = (negative, natChars n) := by
      rw [natChars, spelled]
      apply readSign_twoPlaces known _ digit
      rw [if_pos hundreds, product, Nat.mul_div_cancel_left n (by decide), natChars, spelled]
    have value : ((if negative then -((100 * n : Nat) : ℚ) else (100 * n : Nat)) / 100 : ℚ) =
        (if negative then -(n : Int) else n : Int) := by
      cases negative with
      | false => simp
      | true => simp [neg_div]
    rw [product, value]
    exact .whole text same bounded
  · obtain ⟨front, back, written, filled, places, digits, spelled⟩ :=
      exists_pointed (hundredths significand exponent) 2
    obtain ⟨c, front, rfl⟩ := List.exists_cons_of_ne_nil filled
    have digit : c.isDigit = true := digits c (by simp)
    have text : readSign (twoPlaces x).toList = (negative, c :: front ++ '.' :: back) := by
      apply readSign_twoPlaces known _ digit
      rw [if_neg hundreds, written]
      rfl
    have small : hundredths significand exponent < 2 ^ 64 := by
      have fraction : exponent < 0 := by
        by_contra whole
        rw [hundredths_of_nonneg _ (not_lt.mp whole), Nat.mul_mod_right] at hundreds
        exact hundreds rfl
      have below := hundredths_le_of_neg significand fraction
      omega
    rw [ite_div, neg_div]
    exact .point text filled places digits spelled small

/-- What is written with two places spells the hundredths that are nearest. -/
theorem spellsHundredths_twoPlaces (finite : value? x = some q) :
    SpellsHundredths (twoPlaces x).toList (nearestEven (100 * q) / 100) := by
  unfold value? at finite
  split at finite
  · rename_i negative significand exponent known
    have spells := spellsHundredths_of_parts known
    rw [← Int.cast_natCast, hundredths_eq] at spells
    cases finite
    cases negative with
    | false => exact spells
    | true =>
      rw [if_pos rfl, mul_neg, nearestEven_neg, Int.cast_neg]
      exact spells
  · cases finite

theorem SpellsHundredths.exists_readFinite? {text : List Char} (spells : SpellsHundredths text q) :
    ∃ y, readFinite? text = some y ∧ Denotes y (rounded q) := by
  cases spells with
  | @whole negative n known same bounded =>
    have inside : InRange ((n : Int) : ℚ) := by
      apply inRange_intCast
      rw [Int.cast_natCast, same, Nat.abs_cast]
      exact_mod_cast bounded
    have reached := (Nat.length_toDigits_le_iff (by decide) (by decide)).mpr
      (bounded.trans (by decide +kernel : 2 ^ 1024 < 10 ^ 400))
    exact exists_readFinite?_of_digits known Nat.toDigits_ne_nil
      (fun c => isDigit_of_mem_natChars) Nat.ofDigitChars_ten_toDigits reached inside
  | @point negative n front back known filled places digits value small =>
    obtain ⟨c, front, rfl⟩ := List.exists_cons_of_ne_nil filled
    have read := readMagnitude?_of_point filled
      (fun c member => digits c (List.mem_append_left _ member))
      (fun c member => digits c (List.mem_append_right _ member))
    rw [places, value] at read
    obtain ⟨y, found, denoted⟩ := Decimal.exists_readFinite? known (digits c (by simp)) read
      (denotes_nearest_hundredths small)
    refine ⟨y, found, ?_⟩
    cases negative with
    | false => exact denoted
    | true =>
      rw [if_pos rfl, rounded_neg]
      exact denoted

theorem SpellsHundredths.toInt_eq {text : List Char} {w : Int64} (spells : SpellsHundredths text q)
    (read : readWord? text = some w) : (w.toInt : ℚ) = rounded q := by
  obtain ⟨m, whole, word⟩ := Option.bind_eq_some_iff.mp read
  obtain ⟨negative, cs, n, known, filled, digits, spelled, rfl⟩ := exists_of_readInt? whole
  rw [toInt_of_word?_eq_some word]
  cases spells with
  | @whole _ k knownToo same =>
    obtain ⟨rfl, rfl⟩ := Prod.mk.inj (known.symm.trans knownToo)
    obtain rfl : k = n := Nat.ofDigitChars_ten_toDigits.symm.trans spelled
    cases negative with
    | false => exact same.symm
    | true =>
      rw [if_pos rfl, Int.cast_neg, rounded_neg]
      exact (congrArg Neg.neg same).symm
  | point knownToo =>
    -- A point is no digit.
    obtain ⟨rfl, rfl⟩ := Prod.mk.inj (known.symm.trans knownToo)
    exact absurd (digits '.' (by simp)) (by decide)

theorem hundredths_of_eq {n : Nat} (value : (significand * 2 ^ exponent : ℚ) = n) :
    hundredths significand exponent = 100 * n := by
  have exact := hundredths_eq significand exponent
  rw [value, show (100 * n : ℚ) = ((100 * n : Nat) : Int) by push_cast; rfl,
    nearestEven_intCast] at exact
  exact Int.ofNat.inj exact

theorem twoPlaces_of_eq {negative : Bool} {n : Nat}
    (known : parts x = .finite negative significand exponent)
    (value : (significand * 2 ^ exponent : ℚ) = n) :
    twoPlaces x = String.ofList (if negative then '-' :: natChars n else natChars n) := by
  unfold twoPlaces
  rw [known]
  dsimp only
  rw [hundredths_of_eq value, Nat.mul_mod_right, if_pos rfl,
    Nat.mul_div_cancel_left n (by decide)]

theorem twoPlaces_eq_intText {n : Int} (denoted : Denotes x n) (nonzero : n ≠ 0) :
    twoPlaces x = intText n := by
  generalize value : (n : ℚ) = q at denoted
  cases denoted with
  | zero => exact absurd (Int.cast_eq_zero.mp value) nonzero
  | @finite sign mantissa exponent positive low high least most =>
    have known := parts_pack sign positive low high least most
    have magnitude : (0 : ℚ) < mantissa * 2 ^ exponent := by positivity
    cases sign with
    | positive =>
      obtain ⟨m, rfl⟩ := Int.eq_ofNat_of_zero_le (a := n) (by
        exact_mod_cast (value ▸ magnitude.le : (0 : ℚ) ≤ n))
      exact twoPlaces_of_eq known value.symm
    | negative =>
      have below : n < 0 := by
        have less : (n : ℚ) < 0 := by
          rw [value]
          exact neg_neg_of_pos magnitude
        exact_mod_cast less
      obtain ⟨m, rfl⟩ : ∃ m : Nat, n = -m := ⟨n.natAbs, by omega⟩
      have size : (mantissa * 2 ^ exponent : ℚ) = m := by
        rw [Int.cast_neg] at value
        exact (neg_inj.mp value).symm
      rw [twoPlaces_of_eq known size, intText, intChars, if_pos below, Int.natAbs_neg,
        Int.natAbs_natCast]
      rfl

end

end Tabular.Decimal
