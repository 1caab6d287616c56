import Tabular.Proofs.Decimal.Places

/-!
# Arithmetic on floats

A float denotes a rational number. What an operation on floats gives denotes the exact result for
the numbers they denote, rounded to 53 bits, unless that is too large or needs the smallest
exponent.
-/

namespace Tabular.Decimal

open Float.Model
open Float.Model.UnpackedFloat (ExtendedMantissa Accuracy Sign roundWithAccuracy)

def signed : Sign → ℚ → ℚ
  | .positive, q => q
  | .negative, q => -q

/-- The number of a float that is zero or has 53 bits. -/
inductive Denotes : Float → ℚ → Prop
  | zero (sign : Sign) : Denotes (.ofModel (pack (.zero sign))) 0
  | finite (sign : Sign) {mantissa : Nat} {exponent : Int} (positive : 0 < mantissa)
      (low : 2 ^ 52 ≤ mantissa) (high : mantissa < 2 ^ 53) (least : -1074 ≤ exponent)
      (most : exponent ≤ 971) :
      Denotes (.ofModel (pack (.finite sign mantissa exponent positive)))
        (signed sign (mantissa * 2 ^ exponent))

/-- A number that is rounded to 53 bits of a float. -/
structure InRange (q : ℚ) : Prop where
  large : q = 0 ∨ 2 ^ (-1022 : Int) ≤ |q|
  bounded : |rounded q| < 2 ^ 1024

section

variable {x y : Float} {p q : ℚ}

theorem InRange.neg (inside : InRange q) : InRange (-q) := by
  refine ⟨?_, ?_⟩
  · rw [neg_eq_zero, abs_neg]
    exact inside.large
  · rw [rounded_neg, abs_neg]
    exact inside.bounded

theorem InRange.least {first : Nat} {exponent : Int} (inside : InRange (q * 2 ^ exponent))
    (positive : 0 < q) (below : q < 2 ^ (first + 1)) : -1022 ≤ first + exponent := by
  have place : (0 : ℚ) < 2 ^ exponent := zpow_pos two_pos _
  have product := mul_pos positive place
  have large := inside.large.resolve_left product.ne'
  rw [abs_of_pos product] at large
  have less := large.trans_lt (mul_lt_mul_of_pos_right below place)
  rw [← zpow_natCast, ← zpow_add₀ two_ne_zero] at less
  have exponents := (zpow_lt_zpow_iff_right₀ one_lt_two).mp less
  push_cast at exponents
  omega

theorem most_of_lt {bits : Nat} {exponent : Int} (low : 2 ^ 52 ≤ bits)
    (bounded : |(bits * 2 ^ exponent : ℚ)| < 2 ^ 1024) : exponent ≤ 971 := by
  have place : (0 : ℚ) < 2 ^ exponent := zpow_pos two_pos _
  have low : (2 ^ 52 : ℚ) ≤ bits := by exact_mod_cast low
  have less := (mul_le_mul_of_nonneg_right low place.le).trans_lt ((le_abs_self _).trans_lt bounded)
  rw [← zpow_natCast, ← zpow_natCast, ← zpow_add₀ two_ne_zero] at less
  have exponents := (zpow_lt_zpow_iff_right₀ one_lt_two).mp less
  omega

theorem abs_signed (sign : Sign) (q : ℚ) : |signed sign q| = |q| := by
  cases sign with
  | positive => rfl
  | negative => exact abs_neg q

theorem rounded_signed (sign : Sign) (q : ℚ) :
    rounded (signed sign q) = signed sign (rounded q) := by
  cases sign with
  | positive => rfl
  | negative => exact rounded_neg q

theorem Denotes.rounded_eq_self (denoted : Denotes x q) : rounded q = q := by
  cases denoted with
  | zero => exact rounded_zero
  | finite sign positive low high =>
    rw [rounded_signed]
    congr 1
    apply Decimal.rounded_eq_self
    exact_mod_cast high.le

theorem parts_zero (sign : Sign) :
    parts (.ofModel (pack (.zero sign))) = .finite (sign matches .negative) 0 (-1074) := by
  cases sign <;> rfl

theorem parts_pack (sign : Sign) {mantissa : Nat} {exponent : Int} (positive : 0 < mantissa)
    (low : 2 ^ 52 ≤ mantissa) (high : mantissa < 2 ^ 53) (least : -1074 ≤ exponent)
    (most : exponent ≤ 971) :
    parts (.ofModel (pack (.finite sign mantissa exponent positive))) =
      .finite (sign matches .negative) mantissa exponent := by
  have bits := toNat_toBits_pack positive sign low high least most
  have powers : Nat.pow 2 63 = 2 ^ 63 ∧ Nat.pow 2 52 = 2 ^ 52 ∧ Nat.pow 2 11 = 2 ^ 11 :=
    ⟨rfl, rfl, rfl⟩
  generalize Float.ofModel (pack (.finite sign mantissa exponent positive)) = x at bits ⊢
  simp only [parts, powers]
  generalize x.toBits.toNat = number at bits ⊢
  cases sign with
  | positive =>
    rw [show Sign.positive.toBitVec.toNat = 0 from rfl] at bits
    have field : number / 2 ^ 52 % 2 ^ 11 = (exponent + 1075).toNat := by omega
    rw [field, if_neg (by omega), if_neg (by omega), decide_eq_false (by omega)]
    congr 1
    all_goals omega
  | negative =>
    rw [show Sign.negative.toBitVec.toNat = 1 from rfl] at bits
    have field : number / 2 ^ 52 % 2 ^ 11 = (exponent + 1075).toNat := by omega
    rw [field, if_neg (by omega), if_neg (by omega), decide_eq_true (by omega)]
    congr 1
    all_goals omega

theorem Denotes.value? (denoted : Denotes x q) : value? x = some q := by
  cases denoted with
  | zero sign =>
    rw [Decimal.value?, parts_zero]
    cases sign <;> simp
  | finite sign positive low high least most =>
    rw [Decimal.value?, parts_pack sign positive low high least most]
    cases sign <;> simp [signed]

theorem Denotes.exists_eq_zero (denoted : Denotes x 0) :
    ∃ sign, x = .ofModel (pack (.zero sign)) := by
  generalize value : (0 : ℚ) = q at denoted
  cases denoted with
  | zero sign => exact ⟨sign, rfl⟩
  | @finite sign mantissa exponent positive =>
    have size := abs_signed sign (mantissa * 2 ^ exponent)
    rw [← value, abs_zero] at size
    exact absurd size.symm (abs_pos.mpr (by positivity)).ne'

theorem Denotes.neg (denoted : Denotes x q) : Denotes (-x) (-q) := by
  have model (m : Float.Model) : -Float.ofModel m = .ofModel m.neg := rfl
  cases denoted with
  | zero sign =>
    have opposite : (pack (.zero sign)).neg = pack (.zero (-sign)) := by
      cases sign <;> rfl
    rw [neg_zero, model, opposite]
    exact .zero _
  | finite sign positive low high least most =>
    rw [model, Float.Model.neg, unpack_pack positive sign low high least most]
    cases sign with
    | positive => exact .finite .negative positive low high least most
    | negative =>
      rw [signed, neg_neg]
      exact .finite .positive positive low high least most

end

section

variable {number unit mantissa : Nat} {exponent : Int} {accuracy : Accuracy}

theorem Represents.quotient_bounds
    (held : Represents number unit (ExtendedMantissa.ofMantissaAndAccuracy mantissa accuracy))
    (positive : 0 < unit) (filled : mantissa.log2 ≠ 0) :
    (2 ^ mantissa.log2 : ℚ) ≤ number / unit ∧ (number / unit : ℚ) < 2 ^ (mantissa.log2 + 1) := by
  have scale : (0 : ℚ) < unit := by exact_mod_cast positive
  obtain ⟨low, high⟩ := held.log2_bounds positive (by rintro rfl; exact filled Nat.log2_zero)
  constructor
  · rw [le_div_iff₀ scale]
    exact_mod_cast low
  · rw [div_lt_iff₀ scale]
    exact_mod_cast high

theorem rounded_eq_roundDiv (positive : 0 < unit)
    (held : Represents number unit (ExtendedMantissa.ofMantissaAndAccuracy mantissa accuracy))
    (wide : 52 ≤ mantissa.log2) :
    rounded (number / unit * 2 ^ exponent) =
      roundDiv number (unit * 2 ^ (mantissa.log2 - 52)) *
        2 ^ ((mantissa.log2 : Int) + exponent - 52) := by
  obtain ⟨low, high⟩ := held.quotient_bounds positive (by omega)
  have place : (0 : ℚ) < 2 ^ exponent := zpow_pos two_pos _
  have size : |(number / unit * 2 ^ exponent : ℚ)| = number / unit * 2 ^ exponent :=
    abs_of_nonneg (by positivity)
  have power (more : Nat) : (2 : ℚ) ^ (52 + more) * 2 ^ ((mantissa.log2 : Int) + exponent - 52) =
      2 ^ (mantissa.log2 + more) * 2 ^ exponent := by
    rw [← zpow_natCast, ← zpow_natCast, ← zpow_add₀ two_ne_zero, ← zpow_add₀ two_ne_zero]
    congr 1
    omega
  have known : unitExponent (number / unit * 2 ^ exponent) = mantissa.log2 + exponent - 52 := by
    apply unitExponent_eq
    · rw [size, power 0]
      exact mul_le_mul_of_nonneg_right low place.le
    · rw [size, power 1]
      exact mul_lt_mul_of_pos_right high place
  have scaled : (number / unit * 2 ^ exponent / 2 ^ ((mantissa.log2 : Int) + exponent - 52) : ℚ) =
      number / (unit * 2 ^ (mantissa.log2 - 52) : Nat) := by
    have split : (2 : ℚ) ^ exponent * 2 ^ (mantissa.log2 - 52) =
        2 ^ ((mantissa.log2 : Int) + exponent - 52) := by
      rw [← zpow_natCast, ← zpow_add₀ two_ne_zero]
      congr 1
      omega
    rw [← split]
    push_cast
    field_simp
  rw [rounded, known, scaled, nearestEven_div _ (Nat.mul_pos positive (Nat.two_pow_pos _)),
    Int.cast_natCast]

theorem denotes_round (sign : Sign) (positive : 0 < unit)
    (held : Represents number unit (ExtendedMantissa.ofMantissaAndAccuracy mantissa accuracy))
    (wide : 52 ≤ mantissa.log2) (inside : InRange (number / unit * 2 ^ exponent)) :
    Denotes (.ofModel (pack (roundWithAccuracy .binary64 sign mantissa exponent accuracy)))
      (signed sign (rounded (number / unit * 2 ^ exponent))) := by
  obtain ⟨filled, less⟩ := held.quotient_bounds positive (by omega)
  have least := inside.least (lt_of_lt_of_le (by positivity) filled) less
  have bounded := inside.bounded
  rw [rounded_eq_roundDiv positive held wide] at bounded ⊢
  obtain ⟨low, ⟨less, filled, same⟩ | ⟨top, filled, same⟩⟩ :=
    roundWithAccuracy_eq sign positive held wide least rfl
  · rw [same]
    exact .finite sign filled low less (by omega) (most_of_lt low bounded)
  · have carried : (2 ^ 53 : Nat) * (2 : ℚ) ^ ((mantissa.log2 : Int) + exponent - 52) =
        (2 ^ 52 : Nat) * 2 ^ ((mantissa.log2 : Int) + exponent - 51) := by
      rw [show (mantissa.log2 : Int) + exponent - 51 = mantissa.log2 + exponent - 52 + 1 by omega,
        zpow_add_one₀ two_ne_zero]
      push_cast
      ring
    rw [top, carried] at bounded ⊢
    rw [same]
    exact .finite sign filled (le_refl _) (by decide) (by omega) (most_of_lt (le_refl _) bounded)

theorem denotes_round_exact (sign : Sign) (filled : 0 < mantissa)
    (inside : InRange (mantissa * 2 ^ exponent)) :
    Denotes (.ofModel (pack (UnpackedFloat.round .binary64 sign mantissa exponent)))
      (signed sign (rounded (mantissa * 2 ^ exponent))) := by
  have least : -1022 ≤ mantissa.log2 + exponent :=
    inside.least (by exact_mod_cast filled) (by exact_mod_cast Nat.lt_log2_self)
  have target : Format.binary64.targetExponent (totalExponent mantissa exponent) =
      mantissa.log2 + exponent - 52 := by
    rw [targetExponent_eq, totalExponent]
    omega
  have amount : (exponent - (mantissa.log2 + exponent - 52)).toNat = 52 - mantissa.log2 := by omega
  have bits := log2_mul_two_pow filled (52 - mantissa.log2)
  have moved : ((mantissa * 2 ^ (52 - mantissa.log2) : Nat) : ℚ) / (1 : Nat) *
      2 ^ (exponent - (52 - mantissa.log2 : Nat)) = mantissa * 2 ^ exponent := by
    rw [zpow_sub₀ two_ne_zero, zpow_natCast]
    push_cast
    field_simp
  rw [← moved] at inside ⊢
  simp only [UnpackedFloat.round, target, UnpackedFloat.decreaseExponent, amount, Nat.shiftLeft_eq]
  exact denotes_round sign Nat.one_pos (represents_exact _) (by omega) inside

theorem denotes_normalize {n : Int} (inside : InRange (n * 2 ^ exponent)) :
    Denotes (.ofModel (pack (UnpackedFloat.normalize .binary64 n exponent .positive)))
      (rounded (n * 2 ^ exponent)) := by
  obtain negative | rfl | positive := lt_trichotomy n 0
  · obtain ⟨m, rfl⟩ : ∃ m : Nat, n = -m := ⟨n.natAbs, by omega⟩
    have value : ((-m : Int) * 2 ^ exponent : ℚ) = -(m * 2 ^ exponent) := by
      push_cast
      ring
    have magnitude : (- -(m : Int)).toNat = m := by omega
    rw [UnpackedFloat.normalize, compare_lt_iff_lt.mpr negative, value, rounded_neg]
    have opposite := inside.neg
    rw [value, neg_neg] at opposite
    simp only [magnitude]
    exact denotes_round_exact .negative (by omega) opposite
  · rw [UnpackedFloat.normalize, compare_eq_iff_eq.mpr rfl, Int.cast_zero, zero_mul, rounded_zero]
    exact .zero .positive
  · obtain ⟨m, rfl⟩ := Int.eq_ofNat_of_zero_le positive.le
    rw [UnpackedFloat.normalize, compare_gt_iff_gt.mpr positive]
    exact denotes_round_exact .positive (by omega) inside

end

section

variable {x y : Float} {p q : ℚ}

theorem unpack_zero (sign : Sign) : (pack (.zero sign)).unpack = .zero sign := by
  cases sign <;> rfl

theorem signed_decreaseExponent (sign : Sign) (mantissa : Nat) {exponent smaller : Int}
    (le : smaller ≤ exponent) :
    signed sign (mantissa * 2 ^ exponent) =
      (sign.apply (UnpackedFloat.decreaseExponent mantissa exponent smaller).1 : Int) *
        2 ^ smaller := by
  obtain ⟨places, rfl⟩ := Int.le.dest le
  have amount : (smaller + places - smaller).toNat = places := by omega
  rw [UnpackedFloat.decreaseExponent, amount, Nat.shiftLeft_eq, zpow_add₀ two_ne_zero,
    zpow_natCast]
  cases sign with
  | positive =>
    simp only [signed, Sign.apply]
    push_cast
    ring
  | negative =>
    simp only [signed, Sign.apply]
    push_cast
    ring

theorem Denotes.add (left : Denotes x p) (right : Denotes y q) (inside : InRange (p + q)) :
    Denotes (x + y) (rounded (p + q)) := by
  have model (m n : Float.Model) : Float.ofModel m + Float.ofModel n = .ofModel (m.add n) := rfl
  have fixed := left.rounded_eq_self
  have fixedToo := right.rounded_eq_self
  cases left with
  | zero sign =>
    rw [zero_add, fixedToo]
    cases right with
    | zero other =>
      obtain ⟨both, sum⟩ : ∃ both, UnpackedFloat.add .binary64 (.zero sign) (.zero other) =
          .zero both := by
        cases sign <;> cases other <;> exact ⟨_, rfl⟩
      rw [model, Float.Model.add, unpack_zero, unpack_zero, sum]
      exact .zero both
    | finite other positive low high least most =>
      rw [model, Float.Model.add, unpack_zero, unpack_pack positive other low high least most]
      exact .finite other positive low high least most
  | @finite sign mantissa exponent positive low high least most =>
    cases right with
    | zero other =>
      rw [add_zero, fixed, model, Float.Model.add, unpack_zero,
        unpack_pack positive sign low high least most]
      exact .finite sign positive low high least most
    | @finite other mantissa₂ exponent₂ positive₂ low₂ high₂ least₂ most₂ =>
      rw [model, Float.Model.add, unpack_pack positive sign low high least most,
        unpack_pack positive₂ other low₂ high₂ least₂ most₂]
      rw [signed_decreaseExponent sign mantissa (min_le_left exponent exponent₂),
        signed_decreaseExponent other mantissa₂ (min_le_right exponent exponent₂), ← add_mul,
        ← Int.cast_add] at inside ⊢
      exact denotes_normalize inside

/-- A quotient is taken with enough bits for rounding it. -/
theorem denotes_div {m n : Nat} {e f : Int} (filled : 0 < m) (positive : 0 < n)
    (inside : InRange (m * 2 ^ e / (n * 2 ^ f)))
    (large : (2 : ℚ) ^ (-1021 : Int) ≤ m * 2 ^ e / (n * 2 ^ f)) :
    Denotes (.ofModel (pack (UnpackedFloat.div .binary64 (.finite .positive m e filled)
      (.finite .positive n f positive)))) (rounded (m * 2 ^ e / (n * 2 ^ f))) := by
  have bits : -1021 ≤ (m.log2 : Int) + e - (n.log2 + f) := by
    have place (e : Int) : (0 : ℚ) < 2 ^ e := zpow_pos two_pos _
    have above : (m : ℚ) < 2 ^ (m.log2 + 1) := by exact_mod_cast Nat.lt_log2_self
    have below : (2 ^ n.log2 : ℚ) ≤ n := by exact_mod_cast Nat.log2_self_le positive.ne'
    have scale : (0 : ℚ) < n := by exact_mod_cast positive
    rw [le_div_iff₀ (mul_pos scale (place f))] at large
    have less := ((mul_le_mul_of_nonneg_left (mul_le_mul_of_nonneg_right below (place f).le)
      (place (-1021)).le).trans large).trans_lt (mul_lt_mul_of_pos_right above (place e))
    rw [← zpow_natCast, ← zpow_natCast, ← zpow_add₀ two_ne_zero, ← zpow_add₀ two_ne_zero,
      ← zpow_add₀ two_ne_zero] at less
    have exponents := (zpow_lt_zpow_iff_right₀ one_lt_two).mp less
    omega
  have target : min (e - f)
      (Format.binary64.targetExponent (totalExponent m e - totalExponent n f)) =
        min (e - f) (m.log2 + e - (n.log2 + f) - 53) := by
    simp only [targetExponent_eq, totalExponent]
    omega
  generalize known : min (e - f) ((m.log2 : Int) + e - (n.log2 + f) - 53) = place at target
  obtain ⟨places, amount⟩ := Int.le.dest (show place ≤ e - f by omega)
  have wide : 52 ≤ (m * 2 ^ places / n).log2 := by
    have enough : 2 ^ 52 ≤ m * 2 ^ places / n := by
      rw [Nat.le_div_iff_mul_le positive]
      calc 2 ^ 52 * n ≤ 2 ^ 52 * 2 ^ (n.log2 + 1) :=
            Nat.mul_le_mul_left _ Nat.lt_log2_self.le
        _ ≤ 2 ^ m.log2 * 2 ^ places := by
            rw [← Nat.pow_add, ← Nat.pow_add]
            exact Nat.pow_le_pow_right two_pos (by omega)
        _ ≤ m * 2 ^ places := Nat.mul_le_mul_right _ (Nat.log2_self_le filled.ne')
    exact (Nat.le_log2 (Nat.two_pow_pos 52 |>.trans_le enough).ne').mpr enough
  have value : (m * 2 ^ e / (n * 2 ^ f) : ℚ) = (m * 2 ^ places : Nat) / n * 2 ^ place := by
    have scale : (n : ℚ) ≠ 0 := Nat.cast_ne_zero.mpr positive.ne'
    have unit : (2 : ℚ) ^ f ≠ 0 := zpow_ne_zero f two_ne_zero
    rw [show e = f + place + places by omega, zpow_add₀ two_ne_zero, zpow_add₀ two_ne_zero,
      zpow_natCast]
    push_cast
    field_simp
  rw [value] at inside ⊢
  have amount : (e - f - place).toNat = places := by omega
  dsimp only [UnpackedFloat.div]
  simp only [UnpackedFloat.divCore, target, amount, Nat.shiftLeft_eq]
  exact denotes_round .positive positive (represents_fraction _ positive) wide inside

theorem Denotes.div (left : Denotes x p) (right : Denotes y q) (filled : 0 < p) (positive : 0 < q)
    (inside : InRange (p / q)) (large : (2 : ℚ) ^ (-1021 : Int) ≤ p / q) :
    Denotes (x / y) (rounded (p / q)) := by
  have model (m n : Float.Model) : Float.ofModel m / Float.ofModel n = .ofModel (m.div n) := rfl
  have magnitude (mantissa : Nat) (exponent : Int) : (0 : ℚ) ≤ mantissa * 2 ^ exponent := by
    positivity
  cases left with
  | zero => exact absurd filled (lt_irrefl 0)
  | @finite sign mantissa exponent some low high least most =>
    cases right with
    | zero => exact absurd positive (lt_irrefl 0)
    | @finite other mantissa₂ exponent₂ some₂ low₂ high₂ least₂ most₂ =>
      cases sign with
      | negative => exact absurd filled (not_lt.mpr (neg_nonpos.mpr (magnitude _ _)))
      | positive =>
        cases other with
        | negative => exact absurd positive (not_lt.mpr (neg_nonpos.mpr (magnitude _ _)))
        | positive =>
          rw [model, Float.Model.div, unpack_pack some .positive low high least most,
            unpack_pack some₂ .positive low₂ high₂ least₂ most₂]
          exact denotes_div some some₂ inside large

end

theorem inRange_intCast {n : Int} (bounded : |rounded n| < 2 ^ 1024) : InRange n := by
  refine ⟨?_, bounded⟩
  obtain rfl | nonzero := eq_or_ne n 0
  · exact .inl Int.cast_zero
  · right
    have one : (1 : ℚ) ≤ |(n : ℚ)| := by exact_mod_cast Int.one_le_abs nonzero
    exact (zpow_le_one_of_nonpos₀ one_le_two (by decide)).trans one

/-- Far below the bound there is no need to know the rounded number. -/
theorem inRange_of_abs_le {n : Int} (bits : Nat) (bounded : |n| ≤ 2 ^ bits) (few : bits < 1024) :
    InRange n := by
  apply inRange_intCast
  have rounds : |rounded n| ≤ 2 ^ bits := abs_rounded_le (by exact_mod_cast bounded)
  exact rounds.trans_lt (pow_lt_pow_right₀ one_lt_two few)

theorem denotes_ofNat {n : Nat} (inside : InRange n) : Denotes (Float.ofNat n) (rounded n) := by
  obtain rfl | filled := Nat.eq_zero_or_pos n
  · rw [Nat.cast_zero, rounded_zero]
    exact .zero .positive
  · obtain ⟨shift, wide, known⟩ := toModel_ofNat filled
    have bits := log2_mul_two_pow filled shift
    have value : ((n * 2 ^ shift : Nat) : ℚ) / (1 : Nat) * 2 ^ (-(shift : Int)) = n := by
      rw [zpow_neg, zpow_natCast]
      push_cast
      field_simp
    rw [← value] at inside ⊢
    change Denotes (.ofModel (Float.ofNat n).toModel) _
    rw [known]
    exact denotes_round .positive Nat.one_pos (represents_exact _) (by omega) inside

theorem denotes_toFloat {n : Nat} (small : n < 2 ^ 64) :
    Denotes n.toUInt64.toFloat (rounded n) := by
  have word : n.toUInt64.toNat = n := by
    rw [Nat.toUInt64, UInt64.toNat_ofNat']
    exact Nat.mod_eq_of_lt small
  have inside : InRange ((n : Int) : ℚ) :=
    inRange_of_abs_le 64 (by rw [Nat.abs_cast]; exact_mod_cast small.le) (by decide)
  have value : (((n : Int) : ℚ) * 2 ^ (0 : Int)) = (n : Int) := by
    rw [zpow_zero, mul_one]
  rw [← value] at inside
  have result := denotes_normalize inside
  rw [value] at result
  change Denotes (.ofModel (.ofUInt64 n.toUInt64)) _
  rwa [Float.Model.ofUInt64, UnpackedFloat.ofUInt64, UnpackedFloat.ofNat, UnpackedFloat.ofInt, word]

theorem denotes_ofWord (w : Int64) : Denotes (ofWord w) (rounded w.toInt) := by
  have least := Int64.le_toInt w
  have most := Int64.toInt_lt w
  have inside : InRange w.toInt :=
    inRange_of_abs_le 63 (abs_le.mpr ⟨by omega, by omega⟩) (by decide)
  rw [ofWord]
  cases known : w.toInt with
  | ofNat n =>
    rw [known] at inside
    exact denotes_ofNat inside
  | negSucc n =>
    rw [known, Int.cast_negSucc] at inside
    have opposite := inside.neg
    rw [neg_neg] at opposite
    rw [Int.cast_negSucc, rounded_neg]
    exact (denotes_ofNat opposite).neg

theorem Denotes.add_words {x y : Float} {a b : Int64} (left : Denotes x (rounded a.toInt))
    (right : Denotes y (rounded b.toInt)) :
    ∃ n : Int, rounded (rounded a.toInt + rounded b.toInt) = n ∧ Denotes (x + y) n := by
  have bound (w : Int64) : |rounded w.toInt| ≤ 2 ^ 63 := by
    have least := Int64.le_toInt w
    have most := Int64.toInt_lt w
    apply abs_rounded_le
    exact_mod_cast abs_le.mpr ⟨by omega, by omega⟩
  obtain ⟨m, first⟩ := exists_rounded_intCast a.toInt
  obtain ⟨k, second⟩ := exists_rounded_intCast b.toInt
  have low := bound a
  have high := bound b
  rw [first] at left low
  rw [second] at right high
  have inside : InRange ((m + k : Int) : ℚ) := by
    apply inRange_of_abs_le 64 _ (by decide)
    have low : |m| ≤ 2 ^ 63 := by exact_mod_cast low
    have high : |k| ≤ 2 ^ 63 := by exact_mod_cast high
    have sum := abs_add_le m k
    omega
  obtain ⟨n, sum⟩ := exists_rounded_intCast (m + k)
  rw [Int.cast_add] at inside sum
  refine ⟨n, ?_, ?_⟩
  · rw [first, second, sum]
  · rw [← sum]
    exact left.add right inside

end Tabular.Decimal
