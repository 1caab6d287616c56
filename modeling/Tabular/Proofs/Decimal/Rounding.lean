import Tabular.Decimal.Binary
import Tabular.Proofs.Decimal.Nearest

/-!
# Rounding to 53 bits

How a natural number becomes a double-precision number. Its mantissa is moved until 53 bits are
left, and what falls off decides between the two numbers next to it: the result is at most half a
unit of its last bit away. A number of at most 53 bits stays what it is.
-/

namespace Tabular.Decimal

open Float.Model
open Float.Model.UnpackedFloat (ExtendedMantissa Accuracy roundWithAccuracy shiftToTargetExponent)

/-- A number in some unit. The mantissa counts the whole units, and the two bits compare what is
left with half a unit. -/
def Represents (number unit : Nat) (em : ExtendedMantissa) : Prop :=
  ∃ rest, number = em.mantissa * unit + rest ∧
    match em.roundBit, em.stickyBit with
    | false, false => rest = 0
    | false, true => 0 < rest ∧ 2 * rest < unit
    | true, false => 2 * rest = unit
    | true, true => unit < 2 * rest ∧ rest < unit

/-- A count of units that a number is at most half a unit away from. -/
structure Near (number shift units : Nat) : Prop where
  above : 2 * number ≤ 2 * (units * 2 ^ shift) + 2 ^ shift
  below : 2 * (units * 2 ^ shift) ≤ 2 * number + 2 ^ shift

section

variable {number unit : Nat} {em : ExtendedMantissa}

theorem Represents.shiftRightOne (held : Represents number unit em) (positive : 0 < unit) :
    Represents number (unit * 2) em.shiftRightOne := by
  obtain ⟨mantissa, roundBit, stickyBit⟩ := em
  obtain ⟨rest, rfl, place⟩ := held
  have halves : mantissa * unit = mantissa / 2 * (unit * 2) + mantissa % 2 * unit := by
    conv_lhs => rw [← Nat.div_add_mod mantissa 2]
    ring
  refine ⟨mantissa % 2 * unit + rest, ?_, ?_⟩
  · rw [ExtendedMantissa.shiftRightOne, halves, Nat.add_assoc]
  · rw [ExtendedMantissa.shiftRightOne]
    obtain even | odd := Nat.mod_two_eq_zero_or_one mantissa
    · cases roundBit <;> cases stickyBit <;> simp [even] at place ⊢ <;> omega
    · cases roundBit <;> cases stickyBit <;> simp [odd] at place ⊢ <;> omega

theorem Represents.shiftRight (held : Represents number unit em) (positive : 0 < unit)
    (shift : Nat) : Represents number (unit * 2 ^ shift) (em >>> shift) := by
  induction shift with
  | zero => rwa [Nat.pow_zero, Nat.mul_one]
  | succ shift ih =>
    rw [Nat.pow_succ, ← Nat.mul_assoc]
    exact ih.shiftRightOne (Nat.mul_pos positive (Nat.two_pow_pos shift))

theorem represents_exact (number : Nat) :
    Represents number 1 (ExtendedMantissa.ofMantissaAndAccuracy number .exact) :=
  ⟨0, by simp [ExtendedMantissa.ofMantissaAndAccuracy], rfl⟩

theorem mantissa_ofMantissaAndAccuracy (mantissa : Nat) (accuracy : Accuracy) :
    (ExtendedMantissa.ofMantissaAndAccuracy mantissa accuracy).mantissa = mantissa := by
  unfold ExtendedMantissa.ofMantissaAndAccuracy
  split <;> rfl

theorem represents_fraction (number : Nat) (positive : 0 < unit) :
    Represents number unit (ExtendedMantissa.ofMantissaAndAccuracy (number / unit)
      (UnpackedFloat.accuracyOfFraction (number % unit) unit)) := by
  have parts := (Nat.div_add_mod' number unit).symm
  have less := Nat.mod_lt number positive
  unfold UnpackedFloat.accuracyOfFraction
  split
  · refine ⟨0, ?_, rfl⟩
    rw [mantissa_ofMantissaAndAccuracy]
    omega
  · obtain low | half | high := lt_trichotomy (2 * (number % unit)) unit
    · rw [compare_lt_iff_lt.mpr low]
      exact ⟨number % unit, parts, by omega, low⟩
    · rw [compare_eq_iff_eq.mpr half]
      exact ⟨number % unit, parts, half⟩
    · rw [compare_gt_iff_gt.mpr high]
      exact ⟨number % unit, parts, high, less⟩

theorem Represents.bounds (held : Represents number unit em) (positive : 0 < unit) :
    em.mantissa * unit ≤ number ∧ number < (em.mantissa + 1) * unit := by
  obtain ⟨mantissa, roundBit, stickyBit⟩ := em
  obtain ⟨rest, rfl, place⟩ := held
  have next : (mantissa + 1) * unit = mantissa * unit + unit := Nat.succ_mul ..
  cases roundBit <;> cases stickyBit <;> simp only at place ⊢ <;> omega

theorem Represents.roundedMantissa_eq (held : Represents number unit em) (positive : 0 < unit) :
    em.roundedMantissa = roundDiv number unit := by
  obtain ⟨low, high⟩ := held.bounds positive
  have whole : number / unit = em.mantissa := Nat.div_eq_of_lt_le low high
  have parts := Nat.div_add_mod' number unit
  rw [whole] at parts
  obtain ⟨mantissa, roundBit, stickyBit⟩ := em
  obtain ⟨rest, same, place⟩ := held
  obtain rfl : number % unit = rest := by
    dsimp only at parts same
    omega
  rw [roundDiv, whole]
  cases roundBit <;> cases stickyBit <;> simp only at place
  · rw [compare_lt_iff_lt.mpr (by omega)]
    rfl
  · rw [compare_lt_iff_lt.mpr place.2]
    rfl
  · rw [compare_eq_iff_eq.mpr place]
    obtain even | odd := Nat.mod_two_eq_zero_or_one mantissa
    · simp [ExtendedMantissa.roundedMantissa, ExtendedMantissa.accuracy,
        Accuracy.roundToNearestEven, even]
    · simp [ExtendedMantissa.roundedMantissa, ExtendedMantissa.accuracy,
        Accuracy.roundToNearestEven, odd]
  · rw [compare_gt_iff_gt.mpr place.1]
    rfl

variable {mantissa : Nat} {exponent : Int} {accuracy : Accuracy}

theorem Represents.log2_bounds
    (held : Represents number unit (ExtendedMantissa.ofMantissaAndAccuracy mantissa accuracy))
    (positive : 0 < unit) (filled : mantissa ≠ 0) :
    2 ^ mantissa.log2 * unit ≤ number ∧ number < 2 ^ (mantissa.log2 + 1) * unit := by
  obtain ⟨low, high⟩ := held.bounds positive
  rw [mantissa_ofMantissaAndAccuracy] at low high
  exact ⟨(Nat.mul_le_mul_right unit (Nat.log2_self_le filled)).trans low,
    high.trans_le (Nat.mul_le_mul_right unit Nat.lt_log2_self)⟩

/-- The leading 53 bits of a number, rounded up or down, are 53 bits again or the next power of
two. -/
theorem Represents.roundDiv_bounds
    (held : Represents number unit (ExtendedMantissa.ofMantissaAndAccuracy mantissa accuracy))
    (positive : 0 < unit) (wide : 52 ≤ mantissa.log2) :
    2 ^ 52 ≤ roundDiv number (unit * 2 ^ (mantissa.log2 - 52)) ∧
      roundDiv number (unit * 2 ^ (mantissa.log2 - 52)) ≤ 2 ^ 53 := by
  have scale := Nat.mul_pos positive (Nat.two_pow_pos (mantissa.log2 - 52))
  have filled : mantissa ≠ 0 := by
    rintro rfl
    simp at wide
  obtain ⟨low, high⟩ := held.log2_bounds positive filled
  have leading (more : Nat) : 2 ^ (52 + more) * (unit * 2 ^ (mantissa.log2 - 52)) =
      2 ^ (mantissa.log2 + more) * unit := by
    rw [show mantissa.log2 + more = 52 + more + (mantissa.log2 - 52) by omega,
      Nat.pow_add _ (_ + _)]
    ring
  constructor
  · apply le_roundDiv scale
    rwa [leading 0]
  · apply roundDiv_le scale
    rw [leading 1]
    exact high.le

theorem near_roundDiv (number shift : Nat) : Near number shift (roundDiv number (2 ^ shift)) := by
  have positive := Nat.two_pow_pos shift
  have scale : (0 : ℚ) < (2 ^ shift : Nat) := by exact_mod_cast positive
  have near := (isNearest_nearestEven (number / (2 ^ shift : Nat))).near
  rw [nearestEven_div number positive, Int.cast_natCast, abs_le] at near
  have above : (number : ℚ) ≤ (roundDiv number (2 ^ shift) + 1 / 2) * (2 ^ shift : Nat) := by
    rw [← div_le_iff₀ scale]
    linarith
  have below : (roundDiv number (2 ^ shift) - 1 / 2) * (2 ^ shift : Nat) ≤ (number : ℚ) := by
    rw [← le_div_iff₀ scale]
    linarith
  constructor
  · have doubled : (2 * number : ℚ) ≤
        2 * (roundDiv number (2 ^ shift) * (2 ^ shift : Nat)) + (2 ^ shift : Nat) := by linarith
    exact_mod_cast doubled
  · have doubled : (2 * (roundDiv number (2 ^ shift) * (2 ^ shift : Nat)) : ℚ) ≤
        2 * number + (2 ^ shift : Nat) := by linarith
    exact_mod_cast doubled

theorem targetExponent_eq (exponent : Int) :
    Format.binary64.targetExponent exponent = max (exponent - 53) (-1074) := rfl

theorem shiftToTargetExponent_eq (wide : 52 ≤ mantissa.log2)
    (least : -1022 ≤ mantissa.log2 + exponent) :
    shiftToTargetExponent .binary64 mantissa exponent accuracy =
      (ExtendedMantissa.ofMantissaAndAccuracy mantissa accuracy >>> (mantissa.log2 - 52),
        exponent + (mantissa.log2 - 52 : Nat)) := by
  have amount :
      (Format.binary64.targetExponent (totalExponent mantissa exponent) - exponent).toNat =
        mantissa.log2 - 52 := by
    rw [targetExponent_eq, totalExponent]
    omega
  rw [shiftToTargetExponent, UnpackedFloat.shiftToExponent, amount]

theorem shiftToTargetExponent_mantissa {mantissa : Nat} {exponent : Int}
    (low : 2 ^ 52 ≤ mantissa) (high : mantissa < 2 ^ 53) (least : -1074 ≤ exponent) :
    shiftToTargetExponent .binary64 mantissa exponent .exact =
      (ExtendedMantissa.ofMantissaAndAccuracy mantissa .exact, exponent) := by
  have bits : mantissa.log2 = 52 := (Nat.log2_eq_iff (by omega)).mpr ⟨low, high⟩
  rw [shiftToTargetExponent_eq (by omega) (by omega), bits]
  exact Prod.ext rfl (Int.add_zero exponent)

theorem shiftToTargetExponent_two_pow {exponent : Int} (least : -1074 ≤ exponent) :
    shiftToTargetExponent .binary64 (2 ^ 53) exponent .exact =
      (⟨2 ^ 52, false, false⟩, exponent + 1) := by
  rw [shiftToTargetExponent_eq (by rw [Nat.log2_two_pow]; decide)
    (by rw [Nat.log2_two_pow]; omega), Nat.log2_two_pow]
  rfl

theorem roundWithAccuracy_of_shifts {sign : UnpackedFloat.Sign}
    {once twice : ExtendedMantissa × Int}
    (first : shiftToTargetExponent .binary64 mantissa exponent accuracy = once)
    (second : shiftToTargetExponent .binary64 once.1.roundedMantissa once.2 .exact = twice)
    (filled : twice.1.mantissa ≠ 0) :
    ∃ positive, roundWithAccuracy .binary64 sign mantissa exponent accuracy =
      .finite sign twice.1.mantissa twice.2 positive := by
  subst first second
  exact ⟨Nat.pos_of_ne_zero filled, dif_neg filled⟩

/-- A number of 53 bits or more is rounded to 53 bits. Rounding up may need one more bit; then the
exponent grows instead. -/
theorem roundWithAccuracy_eq {units : Nat} (sign : UnpackedFloat.Sign) (positive : 0 < unit)
    (held : Represents number unit (ExtendedMantissa.ofMantissaAndAccuracy mantissa accuracy))
    (wide : 52 ≤ mantissa.log2) (least : -1022 ≤ mantissa.log2 + exponent)
    (known : roundDiv number (unit * 2 ^ (mantissa.log2 - 52)) = units) :
    2 ^ 52 ≤ units ∧
      ((units < 2 ^ 53 ∧ ∃ positive,
          roundWithAccuracy .binary64 sign mantissa exponent accuracy =
            .finite sign units (mantissa.log2 + exponent - 52) positive) ∨
        (units = 2 ^ 53 ∧ ∃ positive,
          roundWithAccuracy .binary64 sign mantissa exponent accuracy =
            .finite sign (2 ^ 52) (mantissa.log2 + exponent - 51) positive)) := by
  have scale := Nat.mul_pos positive (Nat.two_pow_pos (mantissa.log2 - 52))
  have rounded := (held.shiftRight positive (mantissa.log2 - 52)).roundedMantissa_eq scale
  rw [known] at rounded
  have first : shiftToTargetExponent .binary64 mantissa exponent accuracy =
      (ExtendedMantissa.ofMantissaAndAccuracy mantissa accuracy >>> (mantissa.log2 - 52),
        mantissa.log2 + exponent - 52) := by
    rw [shiftToTargetExponent_eq wide least]
    congr 1
    omega
  obtain ⟨low, high⟩ := held.roundDiv_bounds positive wide
  rw [known] at low high
  refine ⟨low, ?_⟩
  have again (exponent : Int) :=
    congrArg (shiftToTargetExponent .binary64 · exponent .exact) rounded
  -- What was rounded is moved once more, by one place at most.
  obtain less | rfl := Nat.lt_or_eq_of_le high
  · have second := shiftToTargetExponent_mantissa low less
      (show -1074 ≤ mantissa.log2 + exponent - 52 by omega)
    exact .inl ⟨less, roundWithAccuracy_of_shifts first ((again _).trans second)
      (show units ≠ 0 by omega)⟩
  · have second := shiftToTargetExponent_two_pow
      (show -1074 ≤ mantissa.log2 + exponent - 52 by omega)
    rw [show (mantissa.log2 : Int) + exponent - 52 + 1 = mantissa.log2 + exponent - 51 by omega]
      at second
    exact .inr ⟨rfl, roundWithAccuracy_of_shifts first ((again _).trans second)
      (show 2 ^ 52 ≠ 0 by decide)⟩

theorem roundWithAccuracy_exact (wide : 52 ≤ number.log2) (least : -1022 ≤ number.log2 + exponent) :
    ∃ units, Near number (number.log2 - 52) units ∧ 2 ^ 52 ≤ units ∧
      ((units < 2 ^ 53 ∧ ∃ positive, roundWithAccuracy .binary64 .positive number exponent .exact =
          .finite .positive units (number.log2 + exponent - 52) positive) ∨
        (units = 2 ^ 53 ∧ ∃ positive,
          roundWithAccuracy .binary64 .positive number exponent .exact =
            .finite .positive (2 ^ 52) (number.log2 + exponent - 51) positive)) := by
  refine ⟨_, near_roundDiv number _, ?_⟩
  exact roundWithAccuracy_eq .positive Nat.one_pos (represents_exact number) wide least
    (by rw [Nat.one_mul])

end

section

variable {mantissa : Nat} {exponent : Int} (positive : 0 < mantissa)

theorem pack_finite (sign : UnpackedFloat.Sign) (low : 2 ^ 52 ≤ mantissa)
    (high : mantissa < 2 ^ 53) (least : -1074 ≤ exponent) (most : exponent ≤ 971) :
    UnpackedFloat.pack .binary64 (.finite sign mantissa exponent positive) =
      UnpackedFloat.packComponents .binary64 sign (BitVec.ofNat 11 (exponent + 1075).toNat)
        (BitVec.ofNat 52 mantissa) := by
  have bits : mantissa.log2 = 52 := (Nat.log2_eq_iff (by omega)).mpr ⟨low, high⟩
  have bias : exponent + ((Format.binary64.exponentBias : Nat) : Int) + ((52 : Nat) : Int) =
      exponent + 1075 := by
    rw [show Format.binary64.exponentBias = 1023 from rfl]
    omega
  have fits : ¬ 2 ^ 11 ≤ (exponent + 1075).toNat + 1 := by omega
  delta UnpackedFloat.pack
  simp only [bits]
  rw [bias, if_neg fits]
  rfl

/-- Behind the leading bit, which a bit pattern leaves out, a mantissa has 52 bits. -/
theorem toNat_ofNat_mantissa (low : 2 ^ 52 ≤ mantissa) (high : mantissa < 2 ^ 53) :
    (BitVec.ofNat 52 mantissa).toNat = mantissa - 2 ^ 52 := by
  rw [BitVec.toNat_ofNat, Nat.mod_eq_sub_mod low, Nat.mod_eq_of_lt (by omega)]

theorem toNat_ofNat_exponent (least : -1074 ≤ exponent) (most : exponent ≤ 971) :
    ((BitVec.ofNat 11 (exponent + 1075).toNat).toNat : Int) = exponent + 1075 := by
  rw [BitVec.toNat_ofNat, Nat.mod_eq_of_lt (by omega)]
  omega

theorem toNat_toBits_pack (sign : UnpackedFloat.Sign) (low : 2 ^ 52 ≤ mantissa)
    (high : mantissa < 2 ^ 53) (least : -1074 ≤ exponent) (most : exponent ≤ 971) :
    ((Float.ofModel (pack (.finite sign mantissa exponent positive))).toBits.toNat : Int) =
      sign.toBitVec.toNat * 2 ^ 63 + ((exponent + 1074) * 2 ^ 52 + mantissa) := by
  have bits : (Float.ofModel (pack (.finite sign mantissa exponent positive))).toBits.toNat =
      (UnpackedFloat.pack .binary64 (.finite sign mantissa exponent positive)).toNat := rfl
  have place := toNat_ofNat_exponent least most
  have rest := toNat_ofNat_mantissa low high
  rw [bits, pack_finite positive sign low high least most, UnpackedFloat.packComponents,
    BitVec.toNat_append, BitVec.toNat_append, rest, ← Nat.shiftLeft_add_eq_or_of_lt (by omega),
    ← Nat.shiftLeft_add_eq_or_of_lt (BitVec.isLt _), Nat.shiftLeft_eq, Nat.shiftLeft_eq]
  push_cast
  rw [place]
  omega

theorem sign_packComponents (sign : UnpackedFloat.Sign) (exponent : BitVec 11)
    (mantissa : BitVec 52) :
    .ofBitVec (UnpackedFloat.unpackSign
      (UnpackedFloat.packComponents .binary64 sign exponent mantissa)) = sign := by
  have bit : UnpackedFloat.unpackSign
      (UnpackedFloat.packComponents .binary64 sign exponent mantissa) = sign.toBitVec := by
    unfold UnpackedFloat.unpackSign UnpackedFloat.packComponents
    rw [BitVec.append_assoc]
    exact BitVec.extractLsb'_append_eq_left
  rw [bit]
  cases sign <;> rfl

theorem unpack_of_normal {bits : BitVec 64}
    (ordinary : @UnpackedFloat.unpackExponent .binary64 bits ≠ -1#11)
    (normal : @UnpackedFloat.unpackExponent .binary64 bits ≠ 0#11) :
    ∃ positive, UnpackedFloat.unpack .binary64 bits =
      .finite (.ofBitVec (@UnpackedFloat.unpackSign .binary64 bits))
        (1#1 ++ @UnpackedFloat.unpackMantissa .binary64 bits).toNat
        ((@UnpackedFloat.unpackExponent .binary64 bits).toNat - 1075) positive :=
  ⟨_, (if_neg ordinary).trans (if_neg normal)⟩

theorem unpack_pack (sign : UnpackedFloat.Sign) (low : 2 ^ 52 ≤ mantissa)
    (high : mantissa < 2 ^ 53) (least : -1074 ≤ exponent) (most : exponent ≤ 971) :
    (pack (.finite sign mantissa exponent positive)).unpack =
      .finite sign mantissa exponent positive := by
  have bits : (pack (.finite sign mantissa exponent positive)).unpack =
      UnpackedFloat.unpack .binary64
        (UnpackedFloat.pack .binary64 (.finite sign mantissa exponent positive)) := rfl
  have place := toNat_ofNat_exponent least most
  have rest := toNat_ofNat_mantissa low high
  have ordinary : BitVec.ofNat 11 (exponent + 1075).toNat ≠ -1#11 := by
    intro same
    have number := congrArg BitVec.toNat same
    rw [show (-1#11).toNat = 2047 from rfl] at number
    omega
  have normal : BitVec.ofNat 11 (exponent + 1075).toNat ≠ 0#11 := by
    intro same
    have number := congrArg BitVec.toNat same
    rw [show (0#11).toNat = 0 from rfl] at number
    omega
  have whole : (1#1 ++ BitVec.ofNat 52 mantissa).toNat = mantissa := by
    rw [BitVec.toNat_append, rest, ← Nat.shiftLeft_add_eq_or_of_lt (by omega)]
    simp only [BitVec.toNat_ofNat, Nat.shiftLeft_eq]
    omega
  rw [bits, pack_finite positive sign low high least most]
  obtain ⟨_, spelled⟩ := @unpack_of_normal (UnpackedFloat.packComponents .binary64 sign
    (BitVec.ofNat 11 (exponent + 1075).toNat) (BitVec.ofNat 52 mantissa))
    (by rwa [UnpackedFloat.unpackExponent_packComponents])
    (by rwa [UnpackedFloat.unpackExponent_packComponents])
  rw [spelled]
  congr 1
  · exact sign_packComponents sign _ _
  · rw [UnpackedFloat.unpackMantissa_packComponents, whole]
  · rw [UnpackedFloat.unpackExponent_packComponents, place]
    omega

end

section

variable {n : Nat}

/-- A numeral with a power of ten is one product of whole numbers, which is then rounded. -/
theorem ofScientific_eq (filled : 0 < n) {power : Nat} (small : power ≤ 2 ^ 11) :
    Float.Model.ofScientific n power =
      pack (roundWithAccuracy .binary64 .positive (n * 10 ^ power * 2 ^ 53) (-53) .exact) := by
  have reach : ¬ (power : Int) > 2 ^ Format.binary64.exponentBits := by
    change ¬ (power : Int) > 2 ^ 11
    omega
  have above : ¬ (power : Int) < -((2 : Int) ^ Format.binary64.exponentBits + n.log2) := by
    change ¬ (power : Int) < -((2 : Int) ^ 11 + n.log2)
    omega
  have product : n <<< Format.binary64.mantissaBits * 10 ^ (power : Int).toNat =
      n * 10 ^ power * 2 ^ 53 := by
    rw [Nat.shiftLeft_eq, Int.toNat_natCast]
    exact Nat.mul_right_comm _ _ _
  rw [Float.Model.ofScientific, UnpackedFloat.ofScientific, dif_neg filled.ne', if_neg reach,
    if_neg above, if_pos (by omega)]
  dsimp only [UnpackedFloat.mul]
  rw [product]
  rfl

theorem toModel_ofNat_of_large (large : 2 ^ 53 ≤ n) :
    (Float.ofNat n).toModel =
      pack (roundWithAccuracy .binary64 .positive (n * 2 ^ 53) (-53) .exact) := by
  have slow : (Float.ofNat n).toModel = Float.Model.ofScientific n (0 : Nat) := by
    change (Float.ofScientific n false 0).toModel = _
    rw [Float.ofScientific, dif_neg (by omega)]
    rfl
  rw [slow, ofScientific_eq (by omega) (Nat.zero_le _), Nat.pow_zero, Nat.mul_one]

theorem log2_mul_two_pow (filled : 0 < n) (shift : Nat) :
    (n * 2 ^ shift).log2 = n.log2 + shift := by
  have nonzero : n ≠ 0 := by omega
  refine (Nat.log2_eq_iff (Nat.mul_ne_zero nonzero (Nat.two_pow_pos shift).ne')).mpr ⟨?_, ?_⟩
  · rw [Nat.pow_add]
    exact Nat.mul_le_mul_right _ (Nat.log2_self_le nonzero)
  · rw [Nat.add_right_comm, Nat.pow_add]
    exact Nat.mul_lt_mul_of_pos_right Nat.lt_log2_self (Nat.two_pow_pos shift)

theorem log2_le_of_small (filled : 0 < n) (small : n < 2 ^ 53) : n.log2 ≤ 52 := by
  have bits := (Nat.log2_lt (by omega)).mpr small
  omega

theorem normalize_of_small (filled : 0 < n) (small : n < 2 ^ 53) :
    ∃ positive, UnpackedFloat.normalize .binary64 n 0 .positive =
      .finite .positive (n * 2 ^ (52 - n.log2)) (n.log2 - 52) positive := by
  have bits := log2_le_of_small filled small
  have sign : compare (n : Int) 0 = .gt := compare_gt_iff_gt.mpr (by omega)
  have target : Format.binary64.targetExponent (totalExponent n 0) = n.log2 - 52 := by
    rw [targetExponent_eq, totalExponent]
    omega
  have moved : UnpackedFloat.decreaseExponent n 0 (n.log2 - 52) =
      (n * 2 ^ (52 - n.log2), (n.log2 : Int) - 52) := by
    have amount : ((0 : Int) - ((n.log2 : Int) - 52)).toNat = 52 - n.log2 := by omega
    rw [UnpackedFloat.decreaseExponent, amount, Nat.shiftLeft_eq]
    refine Prod.ext rfl ?_
    simp only
    omega
  have wide := log2_mul_two_pow filled (52 - n.log2)
  obtain ⟨units, near, low, held⟩ := @roundWithAccuracy_exact (n * 2 ^ (52 - n.log2))
    (n.log2 - 52) (by omega) (by omega)
  have exact : units = n * 2 ^ (52 - n.log2) := by
    have above := near.above
    have below := near.below
    rw [wide, show n.log2 + (52 - n.log2) - 52 = 0 by omega] at above below
    omega
  have fits : n * 2 ^ (52 - n.log2) < 2 ^ 53 := by
    have top := @Nat.lt_log2_self (n * 2 ^ (52 - n.log2))
    rwa [wide, show n.log2 + (52 - n.log2) + 1 = 53 by omega] at top
  obtain ⟨-, positive, rounded⟩ | ⟨top, -⟩ := held
  · subst exact
    refine ⟨positive, ?_⟩
    have opened : UnpackedFloat.normalize .binary64 n 0 .positive =
        roundWithAccuracy .binary64 .positive (n * 2 ^ (52 - n.log2)) (n.log2 - 52) .exact := by
      simp only [UnpackedFloat.normalize, sign, UnpackedFloat.round, Int.toNat_natCast, target,
        moved]
    have place : ((n * 2 ^ (52 - n.log2)).log2 : Int) + (n.log2 - 52) - 52 = n.log2 - 52 := by
      omega
    rw [opened, rounded, place]
  · omega

theorem toModel_ofNat_of_small (filled : 0 < n) (small : n < 2 ^ 53) :
    (Float.ofNat n).toModel = pack (roundWithAccuracy .binary64 .positive
      (n * 2 ^ (104 - n.log2)) (n.log2 - 104) .exact) := by
  have bits := log2_le_of_small filled small
  have fast : (Float.ofNat n).toModel =
      (Float.Model.ofUInt64 n.toUInt64).mul (Float.Model.ofBits 0x3FF0000000000000) := by
    change (Float.ofScientific n false 0).toModel = _
    rw [Float.ofScientific, dif_pos ⟨small, by decide⟩]
    rfl
  have one : (Float.Model.ofBits 0x3FF0000000000000).unpack =
      .finite .positive (2 ^ 52) (-52) (by decide) := rfl
  have word : n.toUInt64.toNat = n := by
    rw [Nat.toUInt64, UInt64.toNat_ofNat']
    exact Nat.mod_eq_of_lt (by omega)
  have wide := log2_mul_two_pow filled (52 - n.log2)
  obtain ⟨positive, exact⟩ := normalize_of_small filled small
  obtain ⟨low, high⟩ := (Nat.log2_eq_iff positive.ne').mp (show _ = 52 by omega)
  have converted : Float.Model.ofUInt64 n.toUInt64 =
      pack (.finite .positive (n * 2 ^ (52 - n.log2)) (n.log2 - 52) positive) := by
    rw [Float.Model.ofUInt64, UnpackedFloat.ofUInt64, UnpackedFloat.ofNat, UnpackedFloat.ofInt,
      word, exact]
  rw [fast, converted, Float.Model.mul, one,
    unpack_pack positive .positive low high (by omega) (by omega)]
  dsimp only [UnpackedFloat.mul]
  rw [Nat.mul_assoc, ← Nat.pow_add, show 52 - n.log2 + 52 = 104 - n.log2 by omega,
    show (n.log2 : Int) - 52 + -52 = n.log2 - 104 by omega]
  rfl

theorem toModel_ofNat (filled : 0 < n) :
    ∃ shift : Nat, 52 ≤ n.log2 + shift ∧ (Float.ofNat n).toModel =
      pack (roundWithAccuracy .binary64 .positive (n * 2 ^ shift) (-(shift : Int)) .exact) := by
  obtain small | large := Nat.lt_or_ge n (2 ^ 53)
  · have bits := log2_le_of_small filled small
    refine ⟨104 - n.log2, by omega, ?_⟩
    rw [toModel_ofNat_of_small filled small,
      show (n.log2 : Int) - 104 = -(104 - n.log2 : Nat) by omega]
  · exact ⟨53, by omega, toModel_ofNat_of_large large⟩

end

end Tabular.Decimal
