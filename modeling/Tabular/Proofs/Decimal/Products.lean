import Tabular.Decimal.Shortest
import Tabular.Json.Token
import Tabular.Proofs.Decimal.Digits
import Tabular.Proofs.Decimal.Places

/-!
# Products of numbers

Rounding enlarges a number by one part in `2 ^ 53` at most. So the product of two rounded numbers is
finite as long as the exact product leaves that much room below the first number that is rounded to
infinity. The shortest decimal of a float does.
-/

namespace Tabular.Decimal

open Float.Model
open Float.Model.UnpackedFloat (roundWithAccuracy)

/-- How much rounding enlarges a number. -/
def slack : ℚ := 1 + 1 / 2 ^ 53

/-- The first number that is rounded to infinity, half a unit above the largest float. -/
def overflow : Nat := (2 ^ 54 - 1) * 2 ^ 970

theorem overflow_eq : (overflow : ℚ) = (2 ^ 53 - 1 / 2) * 2 ^ (971 : Int) := by
  rw [show (971 : Int) = (970 : Nat) + 1 from rfl, zpow_add_one₀ (by norm_num), zpow_natCast,
    overflow, Nat.cast_mul, Nat.cast_pow]
  generalize ((2 : Nat) : ℚ) ^ 970 = unit
  push_cast
  ring

theorem overflow_bounds :
    2 ^ 64 < overflow ∧ 10 ^ 308 < overflow ∧ overflow < 2 ^ 1024 ∧ overflow < 10 ^ 309 := by
  decide +kernel

/-- A float of 53 bits that is not below one, and not above `q` by more than rounding explains. -/
def RoundedFrom (q : ℚ) (x : Float) : Prop :=
  ∃ mantissa exponent positive,
    x.toModel.unpack = .finite .positive mantissa exponent positive ∧
    2 ^ 52 ≤ mantissa ∧ mantissa < 2 ^ 53 ∧ -52 ≤ exponent ∧ mantissa * 2 ^ exponent ≤ q * slack

section

variable {number : Nat} {exponent : Int}

theorem Near.le_mul_slack {units : Nat} (near : Near number (number.log2 - 52) units)
    (wide : 52 ≤ number.log2) : (units * 2 ^ (number.log2 - 52) : ℚ) ≤ number * slack := by
  have filled : number ≠ 0 := by
    rintro rfl
    simp at wide
  have low : 2 ^ 52 * 2 ^ (number.log2 - 52) ≤ number := by
    rw [← Nat.pow_add, Nat.add_sub_cancel' wide]
    exact Nat.log2_self_le filled
  have low : (2 ^ 52 * 2 ^ (number.log2 - 52) : ℚ) ≤ number := by exact_mod_cast low
  have below : (2 * (units * 2 ^ (number.log2 - 52)) : ℚ) ≤
      2 * number + 2 ^ (number.log2 - 52) := by exact_mod_cast near.below
  rw [slack]
  linarith

theorem log2_add_le (filled : number ≠ 0) (bounded : (number : ℚ) * 2 ^ exponent < overflow) :
    number.log2 + exponent ≤ 1023 := by
  have low : (2 ^ number.log2 : ℚ) ≤ number := by exact_mod_cast Nat.log2_self_le filled
  have scaled : (2 : ℚ) ^ ((number.log2 : Int) + exponent) ≤ number * 2 ^ exponent := by
    rw [zpow_add₀ (by norm_num), zpow_natCast]
    exact mul_le_mul_of_nonneg_right low (by positivity)
  have top : (overflow : ℚ) < 2 ^ (1024 : Int) := by exact_mod_cast overflow_bounds.2.2.1
  have less := (zpow_lt_zpow_iff_right₀ (by norm_num)).mp ((scaled.trans_lt bounded).trans top)
  omega

theorem exists_unpack_round (wide : 52 ≤ number.log2) (least : -1022 ≤ number.log2 + exponent)
    (bounded : (number : ℚ) * 2 ^ exponent < overflow) :
    ∃ mantissa place positive,
      (pack (roundWithAccuracy .binary64 .positive number exponent .exact)).unpack =
        .finite .positive mantissa place positive ∧
      2 ^ 52 ≤ mantissa ∧ mantissa < 2 ^ 53 ∧ number.log2 + exponent - 52 ≤ place ∧
      mantissa * 2 ^ place ≤ number * 2 ^ exponent * slack := by
  have filled : number ≠ 0 := by
    rintro rfl
    simp at wide
  have unit : (0 : ℚ) < 2 ^ exponent := by positivity
  have most := log2_add_le filled bounded
  have step : (2 : ℚ) ^ ((number.log2 : Int) + exponent - 52) =
      2 ^ (number.log2 - 52) * 2 ^ exponent := by
    rw [← zpow_natCast, ← zpow_add₀ (by norm_num)]
    congr 1
    omega
  obtain ⟨units, near, low, held⟩ := roundWithAccuracy_exact wide least
  have value := mul_le_mul_of_nonneg_right (near.le_mul_slack wide) unit.le
  rw [mul_assoc, ← step, mul_right_comm] at value
  obtain ⟨less, positive, rounded⟩ | ⟨rfl, positive, rounded⟩ := held
  · refine ⟨units, _, positive, ?_, low, less, Int.le_refl _, value⟩
    rw [rounded]
    exact unpack_pack positive .positive low less (by omega) (by omega)
  · -- The carry into the exponent cannot reach the infinite numbers.
    have finite : number.log2 + exponent ≠ 1023 := by
      intro top
      have below : (2 * ((2 ^ 53 : Nat) * 2 ^ (number.log2 - 52)) : ℚ) ≤
          2 * number + 2 ^ (number.log2 - 52) := by exact_mod_cast near.below
      have scaled := mul_le_mul_of_nonneg_right below unit.le
      have edge := overflow_eq
      rw [show (971 : Int) = number.log2 + exponent - 52 by omega] at edge
      rw [add_mul, ← step, mul_assoc, mul_assoc, ← step, mul_assoc] at scaled
      push_cast at scaled
      linarith only [bounded, scaled, edge]
    refine ⟨2 ^ 52, number.log2 + exponent - 51, positive, ?_, Nat.le_refl _, by decide, by omega,
      ?_⟩
    · rw [rounded]
      exact unpack_pack positive .positive (Nat.le_refl _) (by decide) (by omega) (by omega)
    · refine le_trans (le_of_eq ?_) value
      rw [show number.log2 + exponent - 51 = number.log2 + exponent - 52 + 1 by omega,
        zpow_add_one₀ (by norm_num)]
      push_cast
      ring

end

section

variable {n shift : Nat} {x y : Float}

theorem roundedFrom_of_toModel (filled : 0 < n) (wide : 52 ≤ n.log2 + shift)
    (bounded : n < overflow) (known : x.toModel =
      pack (roundWithAccuracy .binary64 .positive (n * 2 ^ shift) (-(shift : Int)) .exact)) :
    RoundedFrom n x := by
  have bits := log2_mul_two_pow filled shift
  have same : ((n * 2 ^ shift : Nat) : ℚ) * 2 ^ (-(shift : Int)) = n := by
    rw [zpow_neg, zpow_natCast]
    push_cast
    field_simp
  obtain ⟨mantissa, place, positive, unpacked, low, high, least, value⟩ :=
    @exists_unpack_round (n * 2 ^ shift) (-(shift : Int)) (by omega) (by omega)
      (by rw [same]; exact_mod_cast bounded)
  rw [same] at value
  exact ⟨mantissa, place, positive, known ▸ unpacked, low, high, by omega, value⟩

theorem roundedFrom_ofNat (filled : 0 < n) (bounded : n < 2 ^ 64) :
    RoundedFrom n (Float.ofNat n) := by
  obtain ⟨shift, wide, known⟩ := toModel_ofNat filled
  have within : n < overflow := bounded.trans overflow_bounds.1
  exact roundedFrom_of_toModel filled wide within known

theorem toModel_powerOfTen_of_large (large : 22 < n) (finite : n ≤ 308) :
    (Json.powerOfTen n).toModel =
      pack (roundWithAccuracy .binary64 .positive (10 ^ n * 2 ^ 53) (-53) .exact) := by
  have digits : (natChars 1).length = 1 := by decide
  have within : ¬ exponentReach < (n : Int) + 1 := by
    rw [exponentReach]
    omega
  have slow : (Json.powerOfTen n).toModel = Float.Model.ofScientific 1 n := by
    rw [Json.powerOfTen, nearest, if_neg (by decide), digits]
    simp only [Nat.cast_one]
    rw [if_neg within, if_neg (by rw [exponentReach]; omega), Float.ofScientific,
      dif_neg (by omega), decide_eq_false (by omega)]
    rfl
  rw [slow, ofScientific_eq Nat.one_pos (by omega), Nat.one_mul]

theorem roundedFrom_powerOfTen_of_small :
    ∀ n ≤ 22, ∃ mantissa exponent positive,
      (Json.powerOfTen n).toModel.unpack = .finite .positive mantissa exponent positive ∧
      2 ^ 52 ≤ mantissa ∧ mantissa < 2 ^ 53 ∧ -52 ≤ exponent ∧
      mantissa * 2 ^ exponent.toNat = 10 ^ n * 2 ^ (-exponent).toNat := by
  have known : ∀ n ≤ 22, (match (Json.powerOfTen n).toModel.unpack with
      | .finite .positive mantissa exponent _ =>
        decide (2 ^ 52 ≤ mantissa ∧ mantissa < 2 ^ 53 ∧ -52 ≤ exponent ∧
          mantissa * 2 ^ exponent.toNat = 10 ^ n * 2 ^ (-exponent).toNat)
      | _ => false) = true := by
    decide +kernel
  intro n small
  have held := known n small
  generalize (Json.powerOfTen n).toModel.unpack = float at held ⊢
  cases float with
  | notANumber | infinity _ | zero _ => cases held
  | finite sign mantissa exponent positive =>
    cases sign with
    | positive => exact ⟨mantissa, exponent, positive, rfl, of_decide_eq_true held⟩
    | negative => cases held

theorem roundedFrom_powerOfTen (finite : n ≤ 308) :
    RoundedFrom (10 ^ n : Nat) (Json.powerOfTen n) := by
  obtain small | large := Nat.lt_or_ge 22 n
  · have within : 10 ^ n < overflow :=
      (pow_le_pow_right₀ (by decide) finite).trans_lt overflow_bounds.2.1
    refine roundedFrom_of_toModel (Nat.pow_pos (by decide)) (by omega) within
      (toModel_powerOfTen_of_large small finite)
  · obtain ⟨mantissa, exponent, positive, unpacked, low, high, least, exact⟩ :=
      roundedFrom_powerOfTen_of_small n large
    refine ⟨mantissa, exponent, positive, unpacked, low, high, least, ?_⟩
    have unit : (0 : ℚ) < 2 ^ (-exponent).toNat := by positivity
    have exact : (mantissa * 2 ^ exponent.toNat : ℚ) =
        (10 ^ n : Nat) * 2 ^ (-exponent).toNat := by exact_mod_cast exact
    rw [← zpow_mul_pow_toNat_neg (by norm_num) exponent, ← mul_assoc] at exact
    rw [mul_right_cancel₀ unit.ne' exact, slack]
    have power : (0 : ℚ) ≤ (10 ^ n : Nat) := Nat.cast_nonneg _
    linarith

/-- A product does not overflow if the exact product leaves room for the rounding of its factors. -/
theorem isInf_mul_eq_false {q r : ℚ} (first : RoundedFrom q x) (second : RoundedFrom r y)
    (bounded : q * r * slack ^ 2 < overflow) : (x * y).isInf = false := by
  obtain ⟨m, e, mPositive, unpacked, mLow, mHigh, eLeast, mValue⟩ := first
  obtain ⟨n, f, nPositive, unpackedToo, nLow, nHigh, fLeast, nValue⟩ := second
  have wide : 104 ≤ (m * n).log2 := by
    apply (Nat.le_log2 (Nat.mul_pos mPositive nPositive).ne').mpr
    rw [show 104 = 52 + 52 from rfl, Nat.pow_add]
    exact Nat.mul_le_mul mLow nLow
  have value : ((m * n : Nat) : ℚ) * 2 ^ (e + f) < overflow := by
    refine lt_of_le_of_lt ?_ bounded
    calc ((m * n : Nat) : ℚ) * 2 ^ (e + f)
        = m * 2 ^ e * (n * 2 ^ f) := by
          rw [zpow_add₀ (by norm_num)]
          push_cast
          ring
      _ ≤ q * slack * (r * slack) :=
          mul_le_mul mValue nValue (by positivity) (le_trans (by positivity) mValue)
      _ = q * r * slack ^ 2 := by ring
  obtain ⟨mantissa, place, positive, product, -⟩ :=
    exists_unpack_round (show 52 ≤ (m * n).log2 by omega) (by omega) value
  have model : (x * y).toModel =
      pack (roundWithAccuracy .binary64 .positive (m * n) (e + f) .exact) := by
    change (x.toModel.mul y.toModel) = _
    rw [Float.Model.mul, unpacked, unpackedToo]
    rfl
  have unpackedProduct : (x * y).isInf = (x * y).toModel.unpack.isInf := rfl
  rw [unpackedProduct, model, product]
  rfl

end

namespace Neighbourhood

variable {r : Neighbourhood} {n more : Nat} {e : Int}

def Covers (r : Neighbourhood) (n : Scaled) : Prop :=
  n.digits * 10 ^ n.exponent.toNat * r.denominator ≤ r.high * 10 ^ (-n.exponent).toNat

theorem covers_of_contains (inside : r.contains n e = true) : r.Covers ⟨n, e⟩ := by
  unfold contains at inside
  dsimp only at inside
  split at inside
  · simp only [Bool.and_eq_true, decide_eq_true_eq] at inside
    exact inside.2
  · simp only [Bool.and_eq_true, decide_eq_true_eq] at inside
    exact inside.2.le

theorem covers_of_pointAt? (found : r.pointAt? e = some n) : r.Covers ⟨n, e⟩ := by
  apply covers_of_contains
  unfold pointAt? at found
  cases below : r.contains (r.floorAt e) e with
  | false =>
    cases above : r.contains (r.floorAt e + 1) e with
    | false => simp [below, above] at found
    | true =>
      simp only [below, above, Option.some.injEq] at found
      rwa [← found]
  | true =>
    cases above : r.contains (r.floorAt e + 1) e with
    | false =>
      simp only [below, above, Option.some.injEq] at found
      rwa [← found]
    | true =>
      have either : n = r.floorAt e ∨ n = r.floorAt e + 1 := by
        simp only [below, above] at found
        split at found <;> grind
      obtain rfl | rfl := either
      · exact below
      · exact above

theorem covers_floorAt (ordered : r.value ≤ r.high) (e : Int) : r.Covers ⟨r.floorAt e, e⟩ := by
  have down : r.floorAt e * (r.denominator * 10 ^ e.toNat) ≤ r.value * 10 ^ (-e).toNat :=
    Nat.div_mul_le_self _ _
  calc r.floorAt e * 10 ^ e.toNat * r.denominator
      = r.floorAt e * (r.denominator * 10 ^ e.toNat) := by ring
    _ ≤ r.value * 10 ^ (-e).toNat := down
    _ ≤ r.high * 10 ^ (-e).toNat := Nat.mul_le_mul_right _ ordered

theorem covers_search (ordered : r.value ≤ r.high) (more : Nat) (e : Int) :
    r.Covers (r.search more e) := by
  induction more generalizing e with
  | zero => exact covers_floorAt ordered e
  | succ more ih =>
    rw [search]
    split
    · rename_i n found
      split
      · exact ih (e - 1)
      · exact covers_of_pointAt? found
    · exact ih (e - 1)

theorem search_digits_ne_zero (reached : r.floorAt (e - more) ≠ 0) :
    (r.search more e).digits ≠ 0 := by
  induction more generalizing e with
  | zero => simpa [search] using reached
  | succ more ih =>
    have deeper : (r.search more (e - 1)).digits ≠ 0 := by
      apply ih
      rwa [show e - 1 - more = e - (more + 1 : Nat) by omega]
    rw [search]
    split
    · split
      · exact deeper
      · assumption
    · exact deeper

theorem floorAt_ne_zero (filled : 0 < r.value) (positive : 0 < r.denominator)
    (fine : e < r.magnitude) : r.floorAt e ≠ 0 := by
  have enough : r.denominator * 10 ^ e.toNat ≤ r.value * 10 ^ (-e).toNat := by
    unfold magnitude at fine
    dsimp only at fine
    split at fine
    · rename_i below
      have less : r.value < r.denominator := (Nat.div_eq_zero_iff_lt positive).mp below
      have quotient := lt_pow_length_natChars (r.denominator / r.value)
      have multiple := (Nat.div_lt_iff_lt_mul filled).mp quotient
      have grows : 10 ^ (natChars (r.denominator / r.value)).length ≤ 10 ^ (-e).toNat :=
        Nat.pow_le_pow_right (by decide) (by omega)
      have flat : e.toNat = 0 := by
        have digits : 0 < (natChars (r.denominator / r.value)).length := Nat.length_toDigits_pos
        omega
      rw [flat, Nat.pow_zero, Nat.mul_one, Nat.mul_comm]
      exact multiple.le.trans (Nat.mul_le_mul_right _ grows)
    · rename_i whole
      have low := pow_length_natChars_le whole
      have multiple := (Nat.le_div_iff_mul_le positive).mp low
      have grows : 10 ^ e.toNat ≤ 10 ^ ((natChars (r.value / r.denominator)).length - 1) :=
        Nat.pow_le_pow_right (by decide) (by omega)
      calc r.denominator * 10 ^ e.toNat
          ≤ 10 ^ ((natChars (r.value / r.denominator)).length - 1) * r.denominator := by
            rw [Nat.mul_comm]
            exact Nat.mul_le_mul_right _ grows
        _ ≤ r.value := multiple
        _ ≤ r.value * 10 ^ (-e).toNat := Nat.le_mul_of_pos_right _ (Nat.pow_pos (by decide))
  apply Nat.ne_of_gt
  exact Nat.div_pos enough (Nat.mul_pos positive (Nat.pow_pos (by decide)))

end Neighbourhood

theorem shortest_le (significand : Nat) (exponent : Int) :
    ((shortest significand exponent).digits : ℚ) * 10 ^ (shortest significand exponent).exponent ≤
      (significand + 1 / 2) * 2 ^ exponent := by
  have ordered : (neighbourhood significand exponent).value ≤
      (neighbourhood significand exponent).high :=
    Nat.mul_le_mul_right _ (Nat.le_add_right _ _)
  have covers := Neighbourhood.covers_search ordered 22
    ((neighbourhood significand exponent).magnitude + 1)
  change (neighbourhood significand exponent).Covers (shortest significand exponent) at covers
  generalize shortest significand exponent = n at covers ⊢
  have bound : (n.digits * 10 ^ n.exponent.toNat * (4 * 2 ^ (-exponent).toNat) : ℚ) ≤
      (4 * significand + 2) * 2 ^ exponent.toNat * 10 ^ (-n.exponent).toNat := by
    exact_mod_cast covers
  rw [← zpow_mul_pow_toNat_neg (by norm_num) n.exponent,
    ← zpow_mul_pow_toNat_neg (by norm_num) exponent] at bound
  have scale : (0 : ℚ) < 4 * 2 ^ (-exponent).toNat * 10 ^ (-n.exponent).toNat := by positivity
  refine le_of_mul_le_mul_right ?_ scale
  linarith

theorem shortest_digits_ne_zero {significand : Nat} (filled : significand ≠ 0) (exponent : Int) :
    (shortest significand exponent).digits ≠ 0 := by
  apply Neighbourhood.search_digits_ne_zero
  apply Neighbourhood.floorAt_ne_zero
  · exact Nat.mul_pos (Nat.mul_pos (by decide) (Nat.pos_of_ne_zero filled)) (Nat.two_pow_pos _)
  · exact Nat.mul_pos (by decide) (Nat.two_pow_pos _)
  · omega

/-- The number can be scaled by the power of ten, and the result does not depend on the text that
would be blamed otherwise. -/
def Scales (x : Float) (e : Int) : Prop :=
  ∃ y, ∀ rest, Json.scaleFloat rest 4 x e = .ok y

theorem exists_scaleFloat_of_neg (fuel : Nat) (x : Float) {e : Int} (negative : e < 0) :
    ∃ y, ∀ rest, Json.scaleFloat rest fuel x e = .ok y := by
  induction fuel generalizing x e with
  | zero => exact ⟨x, fun _ => rfl⟩
  | succ fuel ih =>
    by_cases within : e.natAbs ≤ 308
    · refine ⟨x / Json.powerOfTen e.natAbs, fun rest => ?_⟩
      rw [Json.scaleFloat, if_pos within, if_neg (by omega)]
    · by_cases zero : (x == 0) = true
      · refine ⟨x, fun rest => ?_⟩
        rw [Json.scaleFloat, if_neg within, if_pos zero]
      · obtain ⟨y, scaled⟩ := ih (x / Json.powerOfTen 308) (e := e + 308) (by omega)
        refine ⟨y, fun rest => ?_⟩
        rw [Json.scaleFloat, if_neg within, if_neg zero, if_neg (by omega), scaled]

theorem scales_of_neg (x : Float) {e : Int} (negative : e < 0) : Scales x e :=
  exists_scaleFloat_of_neg 4 x negative

theorem scales_of_finite {x : Float} {e : Int} (low : 0 ≤ e) (high : e ≤ 308)
    (finite : (x * Json.powerOfTen e.natAbs).isInf = false) : Scales x e := by
  refine ⟨x * Json.powerOfTen e.natAbs, fun rest => ?_⟩
  rw [Json.scaleFloat, if_pos (by omega), if_pos low]
  simp only [finite, Bool.false_eq_true, if_false]

theorem scales_zero (e : Int) : Scales (Float.ofNat 0) e := by
  obtain negative | low := lt_or_ge e 0
  · exact scales_of_neg _ negative
  · obtain high | far := le_or_gt e 308
    · apply scales_of_finite low high
      obtain ⟨mantissa, exponent, positive, unpacked, -⟩ :=
        @roundedFrom_powerOfTen e.natAbs (by omega)
      have zero : (Float.ofNat 0).toModel.unpack = .zero .positive := rfl
      have model : (Float.ofNat 0 * Json.powerOfTen e.natAbs).isInf =
          ((Float.ofNat 0).toModel.mul (Json.powerOfTen e.natAbs).toModel).isInf := rfl
      have packed : (pack (.zero .positive)).isInf = false := rfl
      rw [model, Float.Model.mul, zero, unpacked]
      exact packed
    · have zero : (Float.ofNat 0 == 0) = true := rfl
      refine ⟨Float.ofNat 0, fun rest => ?_⟩
      rw [Json.scaleFloat, if_neg (by omega), if_pos zero]

theorem leading_le (significand : Nat) (exponent : Int) (dropped : Nat) :
    (((shortest significand exponent).digits / 10 ^ dropped : Nat) : ℚ) *
      10 ^ ((shortest significand exponent).exponent + dropped) ≤
        (significand + 1 / 2) * 2 ^ exponent := by
  refine le_trans ?_ (shortest_le significand exponent)
  generalize shortest significand exponent = n
  have down : ((n.digits / 10 ^ dropped * 10 ^ dropped : Nat) : ℚ) ≤ n.digits := by
    exact_mod_cast Nat.div_mul_le_self _ _
  have scaled := mul_le_mul_of_nonneg_right down (by positivity : (0 : ℚ) ≤ 10 ^ n.exponent)
  refine le_trans (le_of_eq ?_) scaled
  rw [zpow_add₀ (by norm_num), zpow_natCast]
  push_cast
  ring

/-- The shortest decimals of the two largest floats do not overflow. Without their last digits there
is room below the overflow for rounding two factors. -/
theorem shortest_largest : ∀ significand ∈ [2 ^ 53 - 2, 2 ^ 53 - 1],
    (shortest significand 971).exponent = 292 ∧
    (shortest significand 971).digits / 10 * 10 ^ 293 * (2 ^ 53 + 1) ^ 2 < overflow * 2 ^ 106 ∧
    (Float.ofNat (shortest significand 971).digits * Json.powerOfTen 292).isInf = false := by
  decide +kernel

section

variable {significand : Nat} {exponent : Int} (small : significand < 2 ^ 53)
  (most : exponent ≤ 971)

include small most

theorem upperEnd_le_overflow : ((significand + 1 / 2) * 2 ^ exponent : ℚ) ≤ overflow := by
  have units : (significand : ℚ) ≤ 2 ^ 53 - 1 := by
    have next : ((significand + 1 : Nat) : ℚ) ≤ (2 ^ 53 : Nat) := by exact_mod_cast small
    push_cast at next
    linarith
  have scale : (2 : ℚ) ^ exponent ≤ 2 ^ (971 : Int) := zpow_le_zpow_right₀ (by norm_num) most
  rw [overflow_eq]
  apply mul_le_mul _ scale (by positivity) (by norm_num)
  linarith

theorem exponent_add_le {dropped : Nat}
    (kept : (shortest significand exponent).digits / 10 ^ dropped ≠ 0) :
    (shortest significand exponent).exponent + dropped ≤ 308 := by
  have bound := (leading_le significand exponent dropped).trans (upperEnd_le_overflow small most)
  have one : (1 : ℚ) ≤ ((shortest significand exponent).digits / 10 ^ dropped : Nat) := by
    exact_mod_cast Nat.one_le_iff_ne_zero.mpr kept
  have power := (le_mul_of_one_le_left (by positivity) one).trans bound
  have top : (overflow : ℚ) < 10 ^ (309 : Int) := by exact_mod_cast overflow_bounds.2.2.2
  have less := (zpow_lt_zpow_iff_right₀ (by norm_num)).mp (power.trans_lt top)
  omega

/-- Below the two largest floats there is room for rounding three times. -/
theorem upperEnd_mul_slack_lt (room : exponent = 971 → significand + 2 < 2 ^ 53) :
    ((significand + 1 / 2) * 2 ^ exponent * slack ^ 2 : ℚ) < overflow := by
  have bound : ((significand + 1 / 2) * 2 ^ exponent : ℚ) ≤ (2 ^ 53 - 5 / 2) * 2 ^ (971 : Int) := by
    by_cases top : exponent = 971
    · have units : ((significand + 3 : Nat) : ℚ) ≤ (2 ^ 53 : Nat) := by exact_mod_cast room top
      push_cast at units
      rw [top]
      apply mul_le_mul_of_nonneg_right _ (by positivity)
      linarith
    · have units : ((significand + 1 : Nat) : ℚ) ≤ (2 ^ 53 : Nat) := by exact_mod_cast small
      have scale : (2 : ℚ) ^ exponent ≤ 2 ^ (970 : Int) :=
        zpow_le_zpow_right₀ (by norm_num) (by omega)
      have double : (2 : ℚ) ^ (971 : Int) = 2 * 2 ^ (970 : Int) := by
        rw [show (971 : Int) = 1 + 970 from rfl, zpow_add₀ (by norm_num), zpow_one]
      push_cast at units
      rw [double, ← mul_assoc]
      apply mul_le_mul _ scale (by positivity) (by norm_num)
      linarith
  have positive : (0 : ℚ) < 2 ^ (971 : Int) := by positivity
  rw [overflow_eq]
  calc ((significand + 1 / 2) * 2 ^ exponent * slack ^ 2 : ℚ)
      ≤ (2 ^ 53 - 5 / 2) * 2 ^ (971 : Int) * slack ^ 2 :=
        mul_le_mul_of_nonneg_right bound (by positivity)
    _ = (2 ^ 53 - 5 / 2) * slack ^ 2 * 2 ^ (971 : Int) := mul_right_comm _ _ _
    _ < (2 ^ 53 - 1 / 2) * 2 ^ (971 : Int) := by
        apply mul_lt_mul_of_pos_right _ positive
        norm_num [slack]

/-- So there is for the two largest ones when their last digit is dropped. -/
theorem leading_mul_slack_lt {dropped : Nat}
    (room : (exponent = 971 → significand + 2 < 2 ^ 53) ∨ 0 < dropped) :
    (((shortest significand exponent).digits / 10 ^ dropped : Nat) : ℚ) *
      10 ^ ((shortest significand exponent).exponent + dropped) * slack ^ 2 < overflow := by
  have square : 0 ≤ slack ^ 2 := sq_nonneg slack
  by_cases below : exponent = 971 → significand + 2 < 2 ^ 53
  · exact (mul_le_mul_of_nonneg_right (leading_le significand exponent dropped) square).trans_lt
      (upperEnd_mul_slack_lt small most below)
  · obtain ⟨rfl, large⟩ : exponent = 971 ∧ 2 ^ 53 ≤ significand + 2 := by
      constructor <;> omega
    obtain ⟨others, rfl⟩ := Nat.exists_eq_add_of_lt (room.resolve_left below)
    obtain ⟨place, leading, -⟩ := shortest_largest significand (by
      simp only [List.mem_cons, List.not_mem_nil]
      omega)
    rw [Nat.zero_add, Nat.pow_succ', ← Nat.div_div_eq_div_mul, place]
    generalize (shortest significand 971).digits / 10 = digits at leading ⊢
    have cut : ((digits / 10 ^ others * 10 ^ others : Nat) : ℚ) ≤ digits := by
      exact_mod_cast Nat.div_mul_le_self _ _
    have leading : (digits * 10 ^ 293 * (2 ^ 53 + 1) ^ 2 : ℚ) < overflow * 2 ^ 106 := by
      exact_mod_cast leading
    have power : (10 : ℚ) ^ ((292 : Int) + (others + 1 : Nat)) = 10 ^ others * 10 ^ 293 := by
      rw [← pow_add, ← zpow_natCast]
      congr 1
      omega
    have positive : (0 : ℚ) < 10 ^ 293 := by positivity
    rw [power]
    generalize (10 : ℚ) ^ 293 = unit at leading positive ⊢
    calc ((digits / 10 ^ others : Nat) : ℚ) * (10 ^ others * unit) * slack ^ 2
        = (digits / 10 ^ others * 10 ^ others : Nat) * unit * slack ^ 2 := by
          push_cast
          ring
      _ ≤ digits * unit * slack ^ 2 := by gcongr
      _ = digits * unit * (2 ^ 53 + 1) ^ 2 / 2 ^ 106 := by
          rw [slack]
          ring
      _ < overflow := (div_lt_iff₀ (by positivity)).mpr leading

/-- The shortest decimal of a float can be multiplied out, also if only the leading digits of it are
kept. -/
theorem scales_shortest {dropped : Nat}
    (kept : (shortest significand exponent).digits / 10 ^ dropped < 2 ^ 64) :
    Scales (Float.ofNat ((shortest significand exponent).digits / 10 ^ dropped))
      ((shortest significand exponent).exponent + dropped) := by
  obtain negative | low := lt_or_ge ((shortest significand exponent).exponent + dropped) 0
  · exact scales_of_neg _ negative
  by_cases none : (shortest significand exponent).digits / 10 ^ dropped = 0
  · rw [none]
    exact scales_zero _
  have high := exponent_add_le small most none
  apply scales_of_finite low high
  by_cases room : (exponent = 971 → significand + 2 < 2 ^ 53) ∨ 0 < dropped
  · refine isInf_mul_eq_false (roundedFrom_ofNat (Nat.pos_of_ne_zero none) kept)
      (roundedFrom_powerOfTen (by omega)) ?_
    have power : ((10 ^ ((shortest significand exponent).exponent + dropped).natAbs : Nat) : ℚ) =
        10 ^ ((shortest significand exponent).exponent + dropped) := by
      rw [Nat.cast_pow, ← zpow_natCast, Int.natAbs_of_nonneg low]
      rfl
    rw [power]
    exact leading_mul_slack_lt small most room
  · obtain ⟨below, rfl⟩ : ¬ (exponent = 971 → significand + 2 < 2 ^ 53) ∧ dropped = 0 := by omega
    obtain ⟨rfl, large⟩ : exponent = 971 ∧ 2 ^ 53 ≤ significand + 2 := by
      constructor <;> omega
    obtain ⟨place, -, finite⟩ := shortest_largest significand (by
      simp only [List.mem_cons, List.not_mem_nil]
      omega)
    rw [place, Nat.pow_zero, Nat.div_one]
    exact finite

end

theorem exists_parts_of_isFinite {x : Float} (finite : x.isFinite = true) :
    ∃ negative significand exponent, parts x = .finite negative significand exponent ∧
      significand < 2 ^ 53 ∧ exponent ≤ 971 := by
  have ones : @UnpackedFloat.unpackExponent .binary64 x.toBits.toBitVec ≠ -1#11 := by
    intro ones
    have unpacked : x.isFinite =
        (UnpackedFloat.unpack .binary64 x.toBits.toBitVec).isFinite := rfl
    rw [unpacked] at finite
    delta UnpackedFloat.unpack at finite
    rw [if_pos ones] at finite
    split at finite <;> cases finite
  have field : (@UnpackedFloat.unpackExponent .binary64 x.toBits.toBitVec).toNat =
      x.toBits.toNat / Nat.pow 2 52 % Nat.pow 2 11 := by
    simp [UnpackedFloat.unpackExponent, BitVec.extractLsb_toNat, Nat.shiftRight_eq_div_pow]
  have below : x.toBits.toNat / Nat.pow 2 52 % Nat.pow 2 11 ≠ Nat.pow 2 11 - 1 := by
    intro top
    rw [← field] at top
    exact ones (BitVec.eq_of_toNat_eq top)
  have bound : x.toBits.toNat / Nat.pow 2 52 % Nat.pow 2 11 < Nat.pow 2 11 :=
    Nat.mod_lt _ (by decide)
  have fraction : x.toBits.toNat % Nat.pow 2 52 < Nat.pow 2 52 := Nat.mod_lt _ (by decide)
  have powers : Nat.pow 2 52 = 2 ^ 52 ∧ Nat.pow 2 11 = 2 ^ 11 := ⟨rfl, rfl⟩
  unfold parts
  dsimp only
  rw [if_neg below]
  simp only [powers] at below bound fraction ⊢
  split
  · exact ⟨_, _, _, rfl, by omega, by omega⟩
  · exact ⟨_, _, _, rfl, by omega, by omega⟩

end Tabular.Decimal
