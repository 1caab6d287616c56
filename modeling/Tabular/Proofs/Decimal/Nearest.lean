import Mathlib.Algebra.Order.Field.Power
import Mathlib.Data.Int.Log
import Mathlib.Data.Rat.Floor
import Mathlib.Tactic.Linarith
import Mathlib.Tactic.Positivity
import Tabular.Decimal.Fixed

/-!
# The nearest number

Rational numbers are rounded to whole ones, and to those of 53 bits. Of two numbers at the same
distance the even one is taken, so rounding treats the signs alike.
-/

namespace Tabular.Decimal

/-- A whole number is at most a half away from `q`, and at that distance it is even. -/
structure IsNearest (q : ℚ) (n : Int) : Prop where
  near : |q - n| ≤ 1 / 2
  even : |q - n| = 1 / 2 → Even n

/-- The whole number nearest to `q`; a half goes to the even neighbour. -/
def nearestEven (q : ℚ) : Int :=
  if Int.fract q < 1 / 2 ∨ Int.fract q = 1 / 2 ∧ Even ⌊q⌋ then ⌊q⌋ else ⌊q⌋ + 1

section

variable {q : ℚ} {m n : Int}

theorem IsNearest.neg (nearest : IsNearest q n) : IsNearest (-q) (-n) := by
  have distance : |-q - (-n : Int)| = |q - n| := by
    rw [← abs_neg (q - n)]
    congr 1
    push_cast
    ring
  exact ⟨distance ▸ nearest.near, fun half => (nearest.even (distance ▸ half)).neg⟩

theorem IsNearest.le (first : IsNearest q m) (second : IsNearest q n) : n ≤ m := by
  by_contra! less
  have next : (m : ℚ) + 1 ≤ n := by exact_mod_cast less
  have low := (abs_le.mp first.near).2
  have high := (abs_le.mp second.near).1
  -- Both are a half away, so both are even.
  have same : n = m + 1 := by exact_mod_cast (by linarith : (n : ℚ) = m + 1)
  have left := first.even (by rw [abs_of_nonneg] <;> linarith)
  have right := second.even (by rw [abs_of_nonpos] <;> linarith)
  rw [same, Int.even_add_one] at right
  exact right left

theorem IsNearest.unique (first : IsNearest q m) (second : IsNearest q n) : m = n :=
  le_antisymm (second.le first) (first.le second)

theorem isNearest_nearestEven (q : ℚ) : IsNearest q (nearestEven q) := by
  have low := Int.fract_nonneg q
  have high := Int.fract_lt_one q
  have down : q - ⌊q⌋ = Int.fract q := rfl
  have up : q - (⌊q⌋ + 1 : Int) = Int.fract q - 1 := by
    push_cast
    rw [← down]
    ring
  unfold nearestEven
  split_ifs with below
  · rw [← down] at below low
    refine ⟨?_, fun half => ?_⟩
    · rw [abs_of_nonneg low]
      obtain less | ⟨half, -⟩ := below <;> linarith
    · rw [abs_of_nonneg low] at half
      exact (below.resolve_left half.not_lt).2
  · rw [not_or, not_lt, not_and] at below
    constructor
    all_goals rw [up, abs_of_nonpos (by linarith)]
    · linarith [below.1]
    · intro half
      rw [Int.even_add_one]
      exact below.2 (by linarith)

theorem nearestEven_eq_iff : nearestEven q = n ↔ IsNearest q n := by
  constructor
  · rintro rfl
    exact isNearest_nearestEven q
  · exact (isNearest_nearestEven q).unique

theorem nearestEven_neg (q : ℚ) : nearestEven (-q) = -nearestEven q :=
  nearestEven_eq_iff.mpr (isNearest_nearestEven q).neg

theorem nearestEven_eq_of_abs_sub_lt (close : |q - n| < 1 / 2) : nearestEven q = n :=
  nearestEven_eq_iff.mpr ⟨close.le, fun half => absurd half close.ne⟩

@[simp] theorem nearestEven_intCast (n : Int) : nearestEven n = n :=
  nearestEven_eq_of_abs_sub_lt (by rw [sub_self, abs_zero]; norm_num)

theorem nearestEven_le (bounded : q ≤ n) : nearestEven q ≤ n := by
  by_contra! more
  have next : (n : ℚ) + 1 ≤ nearestEven q := by exact_mod_cast more
  have nearest := isNearest_nearestEven q
  have near := (abs_le.mp nearest.near).1
  have same : q = n := by linarith
  rw [same, nearestEven_intCast] at more
  exact lt_irrefl n more

theorem le_nearestEven (bounded : (n : ℚ) ≤ q) : n ≤ nearestEven q := by
  have opposite : nearestEven (-q) ≤ -n := nearestEven_le (by push_cast; linarith)
  rw [nearestEven_neg] at opposite
  omega

theorem abs_nearestEven_le (bounded : |q| ≤ n) : |nearestEven q| ≤ n := by
  obtain ⟨low, high⟩ := abs_le.mp bounded
  exact abs_le.mpr ⟨le_nearestEven (by push_cast; exact low), nearestEven_le high⟩

theorem le_abs_nearestEven (bounded : n ≤ |q|) : n ≤ |nearestEven q| := by
  obtain above | below := le_abs'.mp bounded
  · exact le_abs'.mpr (.inl (nearestEven_le (by push_cast; exact above)))
  · exact le_abs'.mpr (.inr (le_nearestEven below))

theorem nearestEven_div (number : Nat) {unit : Nat} (positive : 0 < unit) :
    nearestEven (number / unit) = roundDiv number unit := by
  have scale : (0 : ℚ) < unit := by exact_mod_cast positive
  have whole : ⌊(number / unit : ℚ)⌋ = ((number / unit : Nat) : Int) :=
    Rat.floor_natCast_div_natCast ..
  have rest : Int.fract (number / unit : ℚ) = ((number % unit : Nat) : ℚ) / unit := by
    have parts : (unit * (number / unit : Nat) + (number % unit : Nat) : ℚ) = number := by
      exact_mod_cast Nat.div_add_mod number unit
    rw [Int.fract, whole, Int.cast_natCast, div_sub' scale.ne', ← parts, add_sub_cancel_left]
  have below : Int.fract (number / unit : ℚ) < 1 / 2 ↔ 2 * (number % unit) < unit := by
    rw [rest, div_lt_div_iff₀ scale two_pos, one_mul, mul_comm]
    norm_cast
  have half : Int.fract (number / unit : ℚ) = 1 / 2 ↔ 2 * (number % unit) = unit := by
    rw [rest, div_eq_div_iff scale.ne' two_ne_zero, one_mul, mul_comm]
    norm_cast
  simp only [nearestEven, below, half, whole, Int.even_coe_nat, Nat.even_iff]
  unfold roundDiv
  dsimp only
  obtain less | same | more := lt_trichotomy (2 * (number % unit)) unit
  · rw [if_pos (.inl less), compare_lt_iff_lt.mpr less]
  · rw [compare_eq_iff_eq.mpr same]
    simp only [same, lt_irrefl, true_and, false_or]
    split <;> rfl
  · rw [if_neg (by omega), compare_gt_iff_gt.mpr more]
    rfl

theorem le_roundDiv {number unit least : Nat} (positive : 0 < unit)
    (bounded : least * unit ≤ number) : least ≤ roundDiv number unit := by
  have scale : (0 : ℚ) < unit := by exact_mod_cast positive
  have above : (least : Int) ≤ nearestEven (number / unit) := by
    apply le_nearestEven
    rw [le_div_iff₀ scale]
    exact_mod_cast bounded
  rw [nearestEven_div number positive] at above
  exact Int.ofNat_le.mp above

theorem roundDiv_le {number unit most : Nat} (positive : 0 < unit)
    (bounded : number ≤ most * unit) : roundDiv number unit ≤ most := by
  have scale : (0 : ℚ) < unit := by exact_mod_cast positive
  have below : nearestEven (number / unit) ≤ (most : Int) := by
    apply nearestEven_le
    rw [div_le_iff₀ scale]
    exact_mod_cast bounded
  rw [nearestEven_div number positive] at below
  exact Int.ofNat_le.mp below

end

/-- The last one of the 53 bits of a number counts `2 ^ unitExponent q`. -/
def unitExponent (q : ℚ) : Int :=
  Int.log 2 |q| - 52

/-- The number of 53 bits nearest to `q`. -/
def rounded (q : ℚ) : ℚ :=
  nearestEven (q / 2 ^ unitExponent q) * 2 ^ unitExponent q

section

variable {q : ℚ} {m : Int} {e : Int}

theorem rounded_neg (q : ℚ) : rounded (-q) = -rounded q := by
  rw [rounded, rounded, unitExponent, unitExponent, abs_neg, neg_div, nearestEven_neg]
  push_cast
  ring

@[simp] theorem rounded_zero : rounded 0 = 0 := by
  have none : nearestEven 0 = 0 := nearestEven_intCast 0
  rw [rounded, zero_div, none, Int.cast_zero, zero_mul]

theorem unitExponent_eq (low : 2 ^ 52 * 2 ^ e ≤ |q|) (high : |q| < 2 ^ 53 * 2 ^ e) :
    unitExponent q = e := by
  have unit : (0 : ℚ) < 2 ^ e := zpow_pos two_pos e
  have positive : 0 < |q| := lt_of_lt_of_le (by positivity) low
  have lower : (2 : ℚ) ^ (52 + e) ≤ |q| := by
    rwa [zpow_add₀ two_ne_zero]
  have upper : |q| < (2 : ℚ) ^ (53 + e) := by
    rwa [zpow_add₀ two_ne_zero]
  have least := (Int.zpow_le_iff_le_log (b := 2) one_lt_two positive).mp (by exact_mod_cast lower)
  have most := (Int.lt_zpow_iff_log_lt (b := 2) one_lt_two positive).mp (by exact_mod_cast upper)
  rw [unitExponent]
  omega

theorem unitExponent_bounds (nonzero : q ≠ 0) :
    2 ^ 52 * 2 ^ unitExponent q ≤ |q| ∧ |q| < 2 ^ 53 * 2 ^ unitExponent q := by
  have positive := abs_pos.mpr nonzero
  have low := Int.zpow_log_le_self (b := 2) one_lt_two positive
  have high := Int.lt_zpow_succ_log_self (b := 2) one_lt_two |q|
  rw [show Int.log 2 |q| = 52 + unitExponent q by rw [unitExponent]; omega] at low high
  rw [add_right_comm] at high
  rw [Nat.cast_ofNat, zpow_add₀ two_ne_zero] at low high
  exact ⟨low, high⟩

/-- Rounding keeps 53 bits, or makes the next power of two of them. -/
theorem abs_nearestEven_units (nonzero : q ≠ 0) :
    2 ^ 52 ≤ |nearestEven (q / 2 ^ unitExponent q)| ∧
      |nearestEven (q / 2 ^ unitExponent q)| ≤ 2 ^ 53 := by
  obtain ⟨low, high⟩ := unitExponent_bounds nonzero
  have unit : (0 : ℚ) < 2 ^ unitExponent q := zpow_pos two_pos _
  have size : |q / 2 ^ unitExponent q| = |q| / 2 ^ unitExponent q := by
    rw [abs_div, abs_of_pos unit]
  rw [← le_div_iff₀ unit, ← size] at low
  rw [← div_lt_iff₀ unit, ← size] at high
  exact ⟨le_abs_nearestEven (by exact_mod_cast low), abs_nearestEven_le (by exact_mod_cast high.le)⟩

theorem rounded_eq_self_of_unitExponent_le (fine : unitExponent (m * 2 ^ e) ≤ e) :
    rounded (m * 2 ^ e) = m * 2 ^ e := by
  generalize known : unitExponent (m * 2 ^ e) = k at fine
  obtain ⟨places, rfl⟩ := Int.le.dest fine
  have unit : (2 : ℚ) ^ k ≠ 0 := zpow_ne_zero k two_ne_zero
  have scaled : (m * 2 ^ (k + places) : ℚ) = (m * 2 ^ places : Int) * 2 ^ k := by
    rw [zpow_add₀ two_ne_zero, zpow_natCast]
    push_cast
    ring
  rw [rounded, known, scaled, mul_div_cancel_right₀ _ unit, nearestEven_intCast]

theorem unitExponent_le (nonzero : q ≠ 0) (less : |q| < 2 ^ 53 * 2 ^ e) : unitExponent q ≤ e := by
  have grows := (unitExponent_bounds nonzero).1.trans_lt less
  rw [← zpow_natCast, ← zpow_natCast, ← zpow_add₀ two_ne_zero, ← zpow_add₀ two_ne_zero] at grows
  have exponents := (zpow_lt_zpow_iff_right₀ one_lt_two).mp grows
  omega

theorem rounded_eq_self (bits : |m| ≤ 2 ^ 53) : rounded (m * 2 ^ e) = m * 2 ^ e := by
  by_cases zero : m = 0
  · rw [zero, Int.cast_zero, zero_mul, rounded_zero]
  have unit (e : Int) : (0 : ℚ) < 2 ^ e := zpow_pos two_pos e
  have fine {n : Int} {f : Int} (nonzero : n ≠ 0) (fewer : |n| < 2 ^ 53) :
      unitExponent (n * 2 ^ f) ≤ f := by
    apply unitExponent_le (mul_ne_zero (Int.cast_ne_zero.mpr nonzero) (unit f).ne')
    rw [abs_mul, abs_of_pos (unit f)]
    exact mul_lt_mul_of_pos_right (by exact_mod_cast fewer) (unit f)
  obtain fewer | full := lt_or_eq_of_le bits
  · exact rounded_eq_self_of_unitExponent_le (fine zero fewer)
  -- A power of two needs a single bit.
  · obtain ⟨half, rfl⟩ : ∃ half, m = half * 2 := ⟨m / 2, by grind⟩
    have moved : ((half * 2 : Int) * 2 ^ e : ℚ) = half * 2 ^ (e + 1) := by
      rw [zpow_add_one₀ two_ne_zero]
      push_cast
      ring
    rw [moved]
    exact rounded_eq_self_of_unitExponent_le (fine (by grind) (by grind))

theorem rounded_intCast (bits : |m| ≤ 2 ^ 53) : rounded m = m := by
  have same := rounded_eq_self (e := 0) bits
  rwa [zpow_zero, mul_one] at same

theorem abs_rounded_le {k : Nat} (bounded : |q| ≤ 2 ^ k) : |rounded q| ≤ 2 ^ k := by
  by_cases zero : q = 0
  · rw [zero, rounded_zero, abs_zero]
    positivity
  have unit : (0 : ℚ) < 2 ^ unitExponent q := zpow_pos two_pos _
  have fine : 52 + unitExponent q ≤ k := by
    have grows := (unitExponent_bounds zero).1.trans bounded
    rw [← zpow_natCast, ← zpow_natCast, ← zpow_add₀ two_ne_zero] at grows
    exact (zpow_le_zpow_iff_right₀ one_lt_two).mp grows
  obtain ⟨places, known⟩ := Int.le.dest (show unitExponent q ≤ k by omega)
  have scaled : (2 : ℚ) ^ k = (2 ^ places : Int) * 2 ^ unitExponent q := by
    rw [← zpow_natCast, ← known, zpow_add₀ two_ne_zero, zpow_natCast]
    push_cast
    ring
  have units : |q / 2 ^ unitExponent q| ≤ (2 ^ places : Int) := by
    rwa [abs_div, abs_of_pos unit, div_le_iff₀ unit, ← scaled]
  rw [rounded, abs_mul, abs_of_pos unit, scaled]
  apply mul_le_mul_of_nonneg_right _ unit.le
  exact_mod_cast abs_nearestEven_le units

/-- A whole number of more bits is rounded to another whole number. -/
theorem exists_rounded_intCast (m : Int) : ∃ n : Int, rounded m = n := by
  obtain few | many := le_or_gt |m| (2 ^ 53)
  · exact ⟨m, rounded_intCast few⟩
  · have nonzero : (m : ℚ) ≠ 0 := by
      rintro zero
      rw [Int.cast_eq_zero.mp zero] at many
      exact absurd many (by decide)
    have many : (2 ^ 53 : ℚ) < |(m : ℚ)| := by exact_mod_cast many
    have grows := many.trans (unitExponent_bounds nonzero).2
    rw [lt_mul_iff_one_lt_right (by positivity)] at grows
    have coarse := (one_lt_zpow_iff_right₀ one_lt_two).mp grows
    obtain ⟨places, known⟩ := Int.eq_ofNat_of_zero_le coarse.le
    refine ⟨nearestEven (m / 2 ^ unitExponent m) * 2 ^ places, ?_⟩
    rw [rounded, known, zpow_natCast]
    push_cast
    rfl

theorem abs_sub_rounded_le (q : ℚ) : |q - rounded q| ≤ 2 ^ unitExponent q / 2 := by
  have unit : (0 : ℚ) < 2 ^ unitExponent q := zpow_pos two_pos _
  have near := mul_le_mul_of_nonneg_right (isNearest_nearestEven (q / 2 ^ unitExponent q)).near
    unit.le
  rwa [← abs_of_pos unit, ← abs_mul, abs_of_pos unit, sub_mul, div_mul_cancel₀ _ unit.ne',
    one_div_mul_eq_div] at near

theorem rounded_eq_of_abs_sub_lt (low : 2 ^ 52 < |m|) (high : |m| < 2 ^ 53)
    (close : |q - m * 2 ^ e| < 2 ^ e / 2) : rounded q = m * 2 ^ e := by
  have unit : (0 : ℚ) < 2 ^ e := zpow_pos two_pos e
  have low : (2 ^ 52 + 1 : ℚ) ≤ |(m : ℚ)| := by exact_mod_cast low
  have high : |(m : ℚ)| + 1 ≤ 2 ^ 53 := by exact_mod_cast high
  have size : |(m * 2 ^ e : ℚ)| = |(m : ℚ)| * 2 ^ e := by rw [abs_mul, abs_of_pos unit]
  have low := mul_le_mul_of_nonneg_right low unit.le
  have high := mul_le_mul_of_nonneg_right high unit.le
  have apart := abs_sub_abs_le_abs_sub q (m * 2 ^ e)
  have apartToo := abs_sub_abs_le_abs_sub (m * 2 ^ e : ℚ) q
  rw [abs_sub_comm] at apartToo
  have known : unitExponent q = e := unitExponent_eq (by linarith) (by linarith)
  have near : |q / 2 ^ e - m| < 1 / 2 := by
    rwa [← mul_lt_mul_iff_left₀ unit, ← abs_of_pos unit, ← abs_mul, abs_of_pos unit, sub_mul,
      div_mul_cancel₀ _ unit.ne', one_div_mul_eq_div]
  rw [rounded, known, nearestEven_eq_of_abs_sub_lt near]

theorem zpow_mul_pow_toNat_neg {base : ℚ} (nonzero : base ≠ 0) (e : Int) :
    base ^ e * base ^ (-e).toNat = base ^ e.toNat := by
  rw [← zpow_natCast, ← zpow_natCast, ← zpow_add₀ nonzero]
  congr 1
  omega

theorem hundredths_eq (significand : Nat) (exponent : Int) :
    (hundredths significand exponent : Int) = nearestEven (100 * (significand * 2 ^ exponent)) := by
  have power := zpow_mul_pow_toNat_neg (two_ne_zero' ℚ) exponent
  have scale : (2 : ℚ) ^ (-exponent).toNat ≠ 0 := pow_ne_zero _ two_ne_zero
  have value : (100 * (significand * 2 ^ exponent) : ℚ) =
      (100 * significand * 2 ^ exponent.toNat : Nat) / (2 ^ (-exponent).toNat : Nat) := by
    push_cast
    rw [eq_div_iff scale, ← power]
    ring
  rw [value, nearestEven_div _ (Nat.two_pow_pos _)]
  rfl

/-- A number of 53 bits with few of them after the point is nearest to its own hundredths. -/
theorem rounded_nearestEven_of_coarse (low : 2 ^ 52 ≤ |m|) (high : |m| ≤ 2 ^ 53) (coarse : -6 ≤ e) :
    rounded (nearestEven (100 * (m * 2 ^ e)) / 100) = m * 2 ^ e := by
  have near := (isNearest_nearestEven (100 * (m * 2 ^ e))).near
  by_cases inside : 2 ^ 52 < |m| ∧ |m| < 2 ^ 53
  · apply rounded_eq_of_abs_sub_lt inside.1 inside.2
    have unit : (2 : ℚ) ^ (-6 : Int) ≤ 2 ^ e := zpow_le_zpow_right₀ one_le_two coarse
    rw [show (2 : ℚ) ^ (-6 : Int) = 1 / 64 by norm_num] at unit
    rw [abs_sub_comm, abs_le] at near
    rw [abs_lt]
    constructor <;> linarith
  -- A power of two is whole here.
  · obtain ⟨n, rfl⟩ : ∃ n, m = n * 64 := ⟨m / 64, by grind⟩
    obtain ⟨places, rfl⟩ := Int.le.dest coarse
    have whole : ((n * 64 : Int) * 2 ^ (-6 + places : Int) : ℚ) = (n * 2 ^ places : Int) := by
      rw [zpow_add₀ two_ne_zero, zpow_natCast]
      push_cast
      rw [show (2 : ℚ) ^ (-6 : Int) = 1 / 64 by norm_num]
      ring
    have hundreds : (100 * (n * 2 ^ places : Int) : ℚ) = (100 * (n * 2 ^ places) : Int) := by
      push_cast
      rfl
    have hundredth : ((100 * (n * 2 ^ places) : Int) / 100 : ℚ) = (n * 2 ^ places : Int) := by
      push_cast
      exact mul_div_cancel_left₀ _ (by norm_num)
    have same := rounded_eq_self (e := -6 + places) high
    rw [whole] at same ⊢
    rw [hundreds, nearestEven_intCast, hundredth, same]

/-- Two places after the point are enough for the numbers that are nearest to such a number. -/
theorem rounded_nearestEven_hundredths_iff {q : ℚ} :
    rounded (nearestEven (100 * q) / 100) = q ↔ ∃ n : Int, q = rounded (n / 100) := by
  constructor
  · intro same
    exact ⟨_, same.symm⟩
  rintro ⟨n, rfl⟩
  have near := abs_sub_rounded_le (n / 100)
  generalize known : unitExponent (n / 100) = k at near
  obtain fine | coarse := Int.lt_or_le k (-6)
  · -- The hundredths are farther apart than the numbers of 53 bits.
    have unit : (2 : ℚ) ^ k ≤ 2 ^ (-7 : Int) := zpow_le_zpow_right₀ one_le_two (by omega)
    rw [show (2 : ℚ) ^ (-7 : Int) = 1 / 128 by norm_num] at unit
    have same : nearestEven (100 * rounded (n / 100)) = n := by
      apply nearestEven_eq_of_abs_sub_lt
      rw [abs_sub_comm, abs_le] at near
      rw [abs_lt]
      constructor <;> linarith
    rw [same]
  · have nonzero : (n / 100 : ℚ) ≠ 0 := by
      intro zero
      rw [zero, unitExponent, abs_zero, Int.log_zero_right] at known
      omega
    obtain ⟨low, high⟩ := abs_nearestEven_units nonzero
    have spelled : rounded (n / 100) = nearestEven (n / 100 / 2 ^ k) * 2 ^ k := by
      rw [rounded, known]
    rw [known] at low high
    rw [spelled]
    exact rounded_nearestEven_of_coarse low high coarse

end

end Tabular.Decimal
