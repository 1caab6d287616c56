import Tabular.Proofs.Decimal.Rounding

/-!
# Values and places of numbers

The bit patterns of double-precision numbers stand on a line in the order of their values, and a
word keeps its place among them when it is rounded to one of them. In the other direction, a number
is cut to a word. Both ways keep the order of the values, although they make some of them equal.
-/

namespace Tabular.Decimal

open Float.Model
open Float.Model.UnpackedFloat (roundWithAccuracy)

/-- The place of `units * 2 ^ exponent` on the line of the bit patterns. -/
def place (units : Nat) (exponent : Int) : Int :=
  (exponent + 1074) * 2 ^ 52 + units

/-- `units * 2 ^ exponent` is at most half a unit away from `q`, and the units are as small as those
of the floats around `q`. -/
structure Rounds (q : ℚ) (units : Nat) (exponent : Int) : Prop where
  least : -1074 ≤ exponent
  normal : exponent = -1074 ∨ 2 ^ 52 * 2 ^ exponent ≤ q
  below : q < 2 ^ 53 * 2 ^ exponent
  near : |q - units * 2 ^ exponent| ≤ 2 ^ exponent / 2

section

variable {q r : ℚ} {units others : Nat} {exponent other : Int}

theorem Rounds.units_le (rounds : Rounds q units exponent) : units ≤ 2 ^ 53 := by
  have positive : (0 : ℚ) < 2 ^ exponent := zpow_pos (by norm_num) _
  have near := (abs_le.mp rounds.near).1
  have below := rounds.below
  have scaled : (units : ℚ) * 2 ^ exponent < (2 ^ 53 + 1) * 2 ^ exponent := by linarith
  have less : (units : ℚ) < 2 ^ 53 + 1 := lt_of_mul_lt_mul_right scaled positive.le
  exact Nat.lt_succ_iff.mp (by exact_mod_cast less)

theorem Rounds.le_units (rounds : Rounds q units exponent) (large : exponent ≠ -1074) :
    2 ^ 52 ≤ units := by
  have positive : (0 : ℚ) < 2 ^ exponent := zpow_pos (by norm_num) _
  have near := (abs_le.mp rounds.near).2
  have above := rounds.normal.resolve_left large
  have scaled : (2 : ℚ) ^ 52 * 2 ^ exponent < (units + 1) * 2 ^ exponent := by linarith
  have less : (2 : ℚ) ^ 52 < units + 1 := lt_of_mul_lt_mul_right scaled positive.le
  exact Nat.lt_succ_iff.mp (by exact_mod_cast less)

theorem Rounds.place_le (first : Rounds q units exponent) (second : Rounds r others other)
    (less : q < r) : place units exponent ≤ place others other := by
  have high := first.units_le
  unfold place
  obtain before | rfl | behind := lt_trichotomy exponent other
  · have low := second.le_units (by have := first.least; omega)
    omega
  · have positive : (0 : ℚ) < 2 ^ exponent := zpow_pos (by norm_num) _
    have lower := (abs_le.mp first.near).1
    have upper := (abs_le.mp second.near).2
    have scaled : (units : ℚ) * 2 ^ exponent < (others + 1) * 2 ^ exponent := by linarith
    have units_lt : (units : ℚ) < others + 1 := lt_of_mul_lt_mul_right scaled positive.le
    have ordered : units ≤ others := Nat.lt_succ_iff.mp (by exact_mod_cast units_lt)
    omega
  · -- The number with the larger units is not below the other one.
    have large : exponent ≠ -1074 := by
      have := second.least
      omega
    have above := first.normal.resolve_left large
    have below := second.below
    have grows : (2 : ℚ) ^ (other + 1) ≤ 2 ^ exponent :=
      zpow_le_zpow_right₀ (by norm_num) behind
    rw [zpow_add_one₀ (by norm_num)] at grows
    linarith

theorem place_nonneg (units : Nat) (least : -1074 ≤ exponent) : 0 ≤ place units exponent := by
  unfold place
  omega

end

/-- The rank of a float that a number of its sign is rounded to. -/
def RanksNext (q : ℚ) (rank : Int) : Prop :=
  ∃ units exponent, Rounds |q| units exponent ∧
    (0 ≤ q ∧ rank = place units exponent ∨ q ≤ 0 ∧ rank = -place units exponent - 1)

theorem RanksNext.le {q r : ℚ} {first second : Int} (left : RanksNext q first)
    (right : RanksNext r second) (less : q < r) : first ≤ second := by
  obtain ⟨units, exponent, rounds, ⟨sign, rfl⟩ | ⟨sign, rfl⟩⟩ := left
  all_goals obtain ⟨others, other, rounding, ⟨otherSign, rfl⟩ | ⟨otherSign, rfl⟩⟩ := right
  · exact rounds.place_le rounding (by rwa [abs_of_nonneg sign, abs_of_nonneg otherSign])
  · linarith
  · have low := place_nonneg units rounds.least
    have high := place_nonneg others rounding.least
    omega
  · have places := rounding.place_le rounds (by
      rwa [abs_of_nonpos sign, abs_of_nonpos otherSign, neg_lt_neg_iff])
    omega

/-- The value of a float, if it is finite. -/
def value? (x : Float) : Option ℚ :=
  match parts x with
  | .finite negative significand exponent =>
    some (if negative then -(significand * 2 ^ exponent) else significand * 2 ^ exponent)
  | _ => none

theorem rank_of_parts {x : Float} {negative : Bool} {significand : Nat} {exponent : Int}
    (finite : parts x = .finite negative significand exponent) :
    rank x = (if negative then -place significand exponent - 1 else place significand exponent) ∧
      -1074 ≤ exponent ∧ significand < 2 ^ 53 ∧ (exponent = -1074 ∨ 2 ^ 52 ≤ significand) := by
  have bound := x.toBits.toNat_lt
  have powers : Nat.pow 2 63 = 2 ^ 63 ∧ Nat.pow 2 52 = 2 ^ 52 ∧ Nat.pow 2 11 = 2 ^ 11 :=
    ⟨rfl, rfl, rfl⟩
  simp only [parts, powers] at finite
  simp only [rank, place, powers]
  generalize x.toBits.toNat = bits at *
  split at finite
  · split at finite <;> cases finite
  split at finite
  · cases finite
    simp only [decide_eq_true_eq, true_or, and_true]
    split <;> omega
  · cases finite
    simp only [decide_eq_true_eq]
    split <;> omega

theorem ranksNext_rank {x : Float} {q : ℚ} (finite : value? x = some q) :
    RanksNext q (rank x) := by
  unfold value? at finite
  split at finite
  · rename_i negative significand exponent known
    obtain ⟨ranked, least, small, normal⟩ := rank_of_parts known
    have positive : (0 : ℚ) < 2 ^ exponent := zpow_pos (by norm_num) _
    have magnitude : (0 : ℚ) ≤ significand * 2 ^ exponent := by positivity
    have exact : Rounds (significand * 2 ^ exponent) significand exponent := by
      refine ⟨least, normal.imp_right fun large => ?_, ?_, ?_⟩
      · exact mul_le_mul_of_nonneg_right (by exact_mod_cast large) positive.le
      · exact mul_lt_mul_of_pos_right (by exact_mod_cast small) positive
      · rw [sub_self, abs_zero]
        linarith
    refine ⟨significand, exponent, ?_⟩
    cases finite
    cases negative with
    | false => exact ⟨by simpa [abs_of_nonneg magnitude] using exact, .inl ⟨magnitude, ranked⟩⟩
    | true =>
      refine ⟨by simpa [abs_of_nonneg magnitude] using exact, .inr ⟨?_, ranked⟩⟩
      simpa using magnitude
  · cases finite

theorem Rounds.of_near {n shift units : Nat} (filled : 0 < n) (wide : 52 ≤ n.log2 + shift)
    (near : Near (n * 2 ^ shift) (n.log2 + shift - 52) units) : Rounds n units (n.log2 - 52) := by
  have scale : (0 : ℚ) < 2 ^ shift := by positivity
  have step : (2 : ℚ) ^ (n.log2 + shift - 52 : Nat) = 2 ^ ((n.log2 : Int) - 52) * 2 ^ shift := by
    rw [← zpow_natCast, ← zpow_natCast, ← zpow_add₀ (by norm_num)]
    congr 1
    omega
  have unit (more : Nat) :
      (2 : ℚ) ^ (52 + more) * 2 ^ ((n.log2 : Int) - 52) = 2 ^ (n.log2 + more) := by
    rw [← zpow_natCast, ← zpow_natCast, ← zpow_add₀ (by norm_num)]
    congr 1
    omega
  have above : (2 * (n * 2 ^ shift) : ℚ) ≤ 2 * (units * 2 ^ (n.log2 + shift - 52)) +
      2 ^ (n.log2 + shift - 52) := by exact_mod_cast near.above
  have below : (2 * (units * 2 ^ (n.log2 + shift - 52)) : ℚ) ≤ 2 * (n * 2 ^ shift) +
      2 ^ (n.log2 + shift - 52) := by exact_mod_cast near.below
  rw [step] at above below
  have low : (2 : ℚ) ^ n.log2 ≤ n := by exact_mod_cast Nat.log2_self_le (by omega)
  have high : (n : ℚ) < 2 ^ (n.log2 + 1) := by exact_mod_cast Nat.lt_log2_self
  refine ⟨by omega, .inr ?_, ?_, abs_le.mpr ⟨?_, ?_⟩⟩
  · rwa [unit 0]
  · rwa [unit 1]
  · refine le_of_mul_le_mul_right ?_ scale
    linarith
  · refine le_of_mul_le_mul_right ?_ scale
    linarith

/-- Up to `2 ^ 64` a number becomes a float with 53 bits. -/
theorem exists_toModel_ofNat {n : Nat} (filled : 0 < n) (bounded : n < 2 ^ 64) :
    ∃ mantissa exponent positive units,
      (Float.ofNat n).toModel = pack (.finite .positive mantissa exponent positive) ∧
      2 ^ 52 ≤ mantissa ∧ mantissa < 2 ^ 53 ∧ -1074 ≤ exponent ∧ exponent ≤ 971 ∧
      place mantissa exponent = place units (n.log2 - 52) ∧ Rounds n units (n.log2 - 52) := by
  obtain ⟨shift, wide, known⟩ := toModel_ofNat filled
  have bits := log2_mul_two_pow filled shift
  have bound : n.log2 < 64 := (Nat.log2_lt (by omega)).mpr bounded
  obtain ⟨units, near, low, held⟩ := @roundWithAccuracy_exact (n * 2 ^ shift) (-(shift : Int))
    (by omega) (by omega)
  have rounds := Rounds.of_near filled wide (bits ▸ near)
  rw [bits] at held
  obtain ⟨less, positive, rounded⟩ | ⟨rfl, positive, rounded⟩ := held
  · refine ⟨_, _, positive, units, known.trans (congrArg pack rounded), low, less, by omega,
      by omega, ?_, rounds⟩
    unfold place
    omega
  · refine ⟨_, _, positive, _, known.trans (congrArg pack rounded), Nat.le_refl _, by decide,
      by omega, by omega, ?_, rounds⟩
    unfold place
    omega

section

variable {mantissa : Nat} {exponent : Int} (positive : 0 < mantissa)
  (low : 2 ^ 52 ≤ mantissa) (high : mantissa < 2 ^ 53) (least : -1074 ≤ exponent)
  (most : exponent ≤ 971)

include low high least most

theorem rank_pack (sign : UnpackedFloat.Sign) :
    rank (.ofModel (pack (.finite sign mantissa exponent positive))) =
      match sign with
      | .positive => place mantissa exponent
      | .negative => -place mantissa exponent - 1 := by
  have bits := toNat_toBits_pack positive sign low high least most
  generalize Float.ofModel (pack (.finite sign mantissa exponent positive)) = x at bits ⊢
  simp only [rank, show Nat.pow 2 63 = 2 ^ 63 from rfl, place]
  cases sign with
  | positive =>
    rw [show UnpackedFloat.Sign.positive.toBitVec.toNat = 0 from rfl] at bits
    dsimp only
    omega
  | negative =>
    rw [show UnpackedFloat.Sign.negative.toBitVec.toNat = 1 from rfl] at bits
    dsimp only
    omega

end

theorem ranksNext_ofNat {n : Nat} (bounded : n < 2 ^ 64) : RanksNext n (rank (Float.ofNat n)) := by
  obtain rfl | filled := Nat.eq_zero_or_pos n
  · have zero : rank (Float.ofNat 0) = place 0 (-1074) := rfl
    have positive : (0 : ℚ) < 2 ^ (-1074 : Int) := zpow_pos (by norm_num) _
    rw [Nat.cast_zero]
    refine ⟨0, -1074, ?_, .inl ⟨le_refl 0, zero⟩⟩
    rw [abs_zero]
    refine ⟨by decide, .inl rfl, by linarith, ?_⟩
    rw [Nat.cast_zero, zero_mul, sub_zero, abs_zero]
    linarith
  · obtain ⟨mantissa, exponent, positive, units, known, low, high, least, most, same, rounds⟩ :=
      exists_toModel_ofNat filled bounded
    have ranked := rank_pack positive low high least most .positive
    rw [← known] at ranked
    exact ⟨units, _, by rwa [Nat.abs_cast], .inl ⟨Nat.cast_nonneg n, ranked.trans same⟩⟩

theorem ranksNext_neg_ofNat {n : Nat} (filled : 0 < n) (bounded : n < 2 ^ 64) :
    RanksNext (-n) (rank (Float.ofNat n).neg) := by
  obtain ⟨mantissa, exponent, positive, units, known, low, high, least, most, same, rounds⟩ :=
    exists_toModel_ofNat filled bounded
  have negated : (Float.ofNat n).neg =
      .ofModel (pack (.finite .negative mantissa exponent positive)) := by
    have model : (Float.ofNat n).neg = .ofModel (Float.ofNat n).toModel.neg := rfl
    rw [model, known, Float.Model.neg, unpack_pack positive .positive low high least most]
    rfl
  have ranked := rank_pack positive low high least most .negative
  rw [← negated, same] at ranked
  exact ⟨units, _, by rwa [abs_neg, Nat.abs_cast], .inr ⟨by simp, ranked⟩⟩

/-- The float of a word is the one that the word is rounded to. -/
theorem ranksNext_ofWord (w : Int64) : RanksNext w.toInt (rank (ofWord w)) := by
  have least := Int64.le_toInt w
  have most := Int64.toInt_lt w
  rw [ofWord]
  cases known : w.toInt with
  | ofNat n =>
    rw [known] at most
    exact ranksNext_ofNat (Nat.lt_trans (Int.ofNat_lt.mp most) (by decide))
  | negSucc n =>
    have next := ranksNext_neg_ofNat (n := n + 1) (Nat.succ_pos n) (by omega)
    rw [Int.cast_negSucc]
    exact next

/-- A number without what stands behind its point. -/
def truncated (q : ℚ) : Int :=
  if 0 ≤ q then ⌊q⌋ else ⌈q⌉

theorem truncated_le_truncated {q r : ℚ} (le : q ≤ r) : truncated q ≤ truncated r := by
  unfold truncated
  split_ifs with low high high
  · exact Int.floor_mono le
  · exact absurd (low.trans le) high
  · exact (Int.ceil_le.mpr (by push_cast; linarith)).trans (Int.floor_nonneg.mpr high)
  · exact Int.ceil_mono le

theorem truncated_intCast (n : Int) : truncated n = n := by
  unfold truncated
  split_ifs
  · exact Int.floor_intCast n
  · exact Int.ceil_intCast n

theorem floor_shift (significand : Nat) (exponent : Int) :
    ⌊(significand * 2 ^ exponent : ℚ)⌋ = shift significand exponent := by
  unfold shift
  split_ifs with whole
  · obtain ⟨places, rfl⟩ := Int.eq_ofNat_of_zero_le whole
    have exact : (significand * 2 ^ (places : Int) : ℚ) =
        ((significand * 2 ^ places : Nat) : Int) := by push_cast; rw [zpow_natCast]
    rw [exact, Int.floor_intCast]
    rfl
  · obtain ⟨places, opposite⟩ := Int.eq_ofNat_of_zero_le (a := -exponent) (by omega)
    have divided : (significand * 2 ^ exponent : ℚ) = (significand : ℚ) / (2 ^ places : Nat) := by
      rw [show exponent = -(places : Int) by omega, zpow_neg, zpow_natCast, div_eq_mul_inv]
      push_cast
      rfl
    rw [divided, Rat.floor_natCast_div_natCast, opposite]
    rfl

theorem toInt_nearestWord (n : Int) :
    (nearestWord n).toInt = max (-2 ^ 63) (min n (2 ^ 63 - 1)) := by
  unfold nearestWord
  split_ifs with low high
  · rw [show Int64.minValue.toInt = -2 ^ 63 from rfl]
    omega
  · rw [show Int64.maxValue.toInt = 2 ^ 63 - 1 from rfl]
    omega
  · rw [Int64.toInt_ofInt_of_le (by omega) (by omega)]
    omega

theorem toInt_nearestWord_mono {m n : Int} (le : m ≤ n) :
    (nearestWord m).toInt ≤ (nearestWord n).toInt := by
  rw [toInt_nearestWord, toInt_nearestWord]
  omega

theorem nearestWord_toInt (w : Int64) : nearestWord w.toInt = w := by
  have least := Int64.le_toInt w
  have most := Int64.toInt_lt w
  rw [nearestWord, if_neg (by omega), if_neg (by omega), Int64.ofInt_toInt]

theorem toWord_eq {x : Float} {q : ℚ} (finite : value? x = some q) :
    toWord x = nearestWord (truncated q) := by
  unfold value? at finite
  split at finite
  · rename_i negative significand exponent known
    have whole := floor_shift significand exponent
    have magnitude : (0 : ℚ) ≤ significand * 2 ^ exponent :=
      mul_nonneg (Nat.cast_nonneg _) (zpow_nonneg (by norm_num) _)
    simp only [toWord, wholePart?, known, Option.getD_some]
    congr 1
    cases finite
    cases negative with
    | false =>
      rw [if_neg Bool.false_ne_true, if_neg Bool.false_ne_true, truncated, if_pos magnitude, whole]
    | true =>
      rw [if_pos rfl, if_pos rfl, truncated, Int.ceil_neg, whole]
      split_ifs with zero
      · have none : (significand * 2 ^ exponent : ℚ) = 0 := by linarith
        rw [none, Int.floor_zero] at whole
        rw [none, ← whole]
        simp
      · rfl
  · cases finite

end Tabular.Decimal
