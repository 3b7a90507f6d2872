import Mathlib.Algebra.Order.Field.Power
import Mathlib.Data.Rat.Cast.Order
import Mathlib.Tactic.Linarith
import Mathlib.Tactic.NormNum
import Mathlib.Tactic.Positivity
import PayloadCheck.Json.Finite

namespace PayloadCheck.Number.Binary64

open Json

/-- The greatest double is `2 ^ 1024 - 2 ^ 971`. What lies closer to `2 ^ 1024` than to it is rounded to
infinity, and so is the point halfway, as the mantissa of the greatest double is odd. -/
def overflowBound : ℚ := 2 ^ 1024 - 2 ^ 970

theorem cast_pow_toNat (base : Nat) {exponent : Int} (nonneg : 0 ≤ exponent) :
    ((Nat.pow base exponent.toNat : Nat) : ℚ) = (base : ℚ) ^ exponent := by
  rw [Nat.pow_eq, Nat.cast_pow, ← zpow_natCast, Int.toNat_of_nonneg nonneg]

theorem log2_bounds {n : Nat} (positive : 0 < n) :
    (2 : ℚ) ^ (n.log2 : Int) ≤ n ∧ (n : ℚ) < 2 ^ ((n.log2 : Int) + 1) := by
  have lower : 2 ^ n.log2 ≤ n := Nat.log2_self_le positive.ne'
  have upper : n < 2 ^ (n.log2 + 1) := Nat.lt_log2_self
  refine ⟨?_, ?_⟩
  · rw [zpow_natCast]
    exact_mod_cast lower
  · rw [← Nat.cast_succ, zpow_natCast]
    exact_mod_cast upper

variable {num den : Nat}

/-- The comparison that decides between the two exponents. -/
theorem reached_iff (num : Nat) (guess : Int) (positive : 0 < den) :
    (if 0 ≤ guess then den * Nat.pow 2 guess.toNat ≤ num else den ≤ num * Nat.pow 2 (-guess).toNat) ↔
      (2 : ℚ) ^ guess ≤ num / den := by
  have above : (0 : ℚ) < den := by exact_mod_cast positive
  rw [le_div_iff₀ above]
  split
  · rename_i nonneg
    rw [← Nat.cast_le (α := ℚ), Nat.cast_mul, cast_pow_toNat 2 nonneg, mul_comm]
    rfl
  · rename_i negative
    rw [← Nat.cast_le (α := ℚ), Nat.cast_mul, cast_pow_toNat 2 (by omega : 0 ≤ -guess), zpow_neg,
      ← div_eq_mul_inv, Nat.cast_two, le_div_iff₀ (by positivity), mul_comm]

theorem floorLog2_bounds (numerator : 0 < num) (denominator : 0 < den) :
    (2 : ℚ) ^ floorLog2 num den ≤ num / den ∧ (num : ℚ) / den < 2 ^ (floorLog2 num den + 1) := by
  obtain ⟨numLow, numHigh⟩ := log2_bounds numerator
  obtain ⟨denLow, denHigh⟩ := log2_bounds denominator
  have above : (0 : ℚ) < den := by exact_mod_cast denominator
  have reached := reached_iff num ((num.log2 : Int) - den.log2) denominator
  have low : (2 : ℚ) ^ ((num.log2 : Int) - den.log2 - 1) ≤ num / den := by
    rw [le_div_iff₀ above]
    calc (2 : ℚ) ^ ((num.log2 : Int) - den.log2 - 1) * den
        ≤ 2 ^ ((num.log2 : Int) - den.log2 - 1) * 2 ^ ((den.log2 : Int) + 1) := by gcongr
      _ = 2 ^ (num.log2 : Int) := by rw [← zpow_add₀ two_ne_zero]; congr 1; omega
      _ ≤ num := numLow
  have high : (num : ℚ) / den < 2 ^ ((num.log2 : Int) - den.log2 + 1) := by
    rw [div_lt_iff₀ above]
    calc (num : ℚ) < 2 ^ ((num.log2 : Int) + 1) := numHigh
      _ = 2 ^ ((num.log2 : Int) - den.log2 + 1) * 2 ^ (den.log2 : Int) := by
        rw [← zpow_add₀ two_ne_zero]; congr 1; omega
      _ ≤ 2 ^ ((num.log2 : Int) - den.log2 + 1) * den := by gcongr
  unfold floorLog2
  dsimp only
  by_cases fits : (2 : ℚ) ^ ((num.log2 : Int) - den.log2) ≤ num / den
  · rw [if_pos (reached.mpr fits)]
    exact ⟨fits, high⟩
  · rw [if_neg (mt reached.mp fits), sub_add_cancel]
    exact ⟨low, not_le.mp fits⟩

/-- From halfway above an odd number on, rounding goes past that number. -/
theorem odd_lt_roundDiv_iff (num : Nat) {bound : Nat} (odd : bound % 2 = 1) (positive : 0 < den) :
    bound < roundDiv num den ↔ (2 * bound + 1) * den ≤ 2 * num := by
  have parts := Nat.div_add_mod num den
  have small := Nat.mod_lt num positive
  unfold roundDiv
  dsimp only
  generalize num / den = quotient at *
  generalize num % den = rest at *
  subst parts
  rcases Nat.lt_trichotomy quotient bound with below | rfl | above
  · have step : (quotient + 1) * den ≤ bound * den := Nat.mul_le_mul_right den below
    have short : ¬ (2 * bound + 1) * den ≤ 2 * (den * quotient + rest) := by
      linarith [step]
    refine iff_of_false (fun passed => ?_) short
    split at passed <;> omega
  · rw [show (2 * quotient + 1) * den ≤ 2 * (den * quotient + rest) ↔ den ≤ 2 * rest by
      constructor <;> intro h <;> linarith]
    simp only [odd, beq_self_eq_true, Bool.and_true, Bool.or_eq_true, decide_eq_true_eq, beq_iff_eq]
    split <;> omega
  · have step : (bound + 1) * den ≤ quotient * den := Nat.mul_le_mul_right den above
    have reached : (2 * bound + 1) * den ≤ 2 * (den * quotient + rest) := by linarith
    refine iff_of_true ?_ reached
    split <;> omega

theorem roundDiv_le (bound : Nat) (positive : 0 < den) (below : num < bound * den) :
    roundDiv num den ≤ bound := by
  have less : num / den < bound := (Nat.div_lt_iff_lt_mul positive).mpr below
  unfold roundDiv
  dsimp only
  split <;> omega

theorem overflowBound_eq : overflowBound = (2 ^ 54 - 1) * 2 ^ 970 := by
  rw [overflowBound, show 1024 = 54 + 970 from rfl, pow_add, sub_mul, one_mul]

theorem two_pow_le_overflowBound : (2 : ℚ) ^ ((53 + 970 : Nat) : Int) ≤ overflowBound := by
  have power : (0 : ℚ) ≤ 2 ^ 970 := by positivity
  rw [zpow_natCast, pow_add, overflowBound_eq]
  exact mul_le_mul_of_nonneg_right (by norm_num) power

theorem overflowBound_le_two_pow : overflowBound ≤ (2 : ℚ) ^ ((54 + 970 : Nat) : Int) := by
  have power : (0 : ℚ) ≤ 2 ^ 970 := by positivity
  rw [zpow_natCast, pow_add, overflowBound_eq]
  exact mul_le_mul_of_nonneg_right (by norm_num) power

theorem one_le_overflowBound : 1 ≤ overflowBound :=
  (one_le_zpow₀ one_le_two (Int.natCast_nonneg _)).trans two_pow_le_overflowBound

theorem overflowBound_le_ten_pow : overflowBound ≤ (10 : ℚ) ^ ((310 : Nat) : Int) := by
  calc overflowBound ≤ 2 ^ 1024 := sub_le_self _ (by positivity)
    _ = (2 ^ 93) ^ 11 * 2 := by rw [← pow_mul, ← pow_succ]
    _ ≤ (10 ^ 28) ^ 11 * 10 ^ 2 := by gcongr <;> norm_num
    _ = 10 ^ ((310 : Nat) : Int) := by rw [zpow_natCast, ← pow_mul, ← pow_add]

theorem isFiniteNumber_pack (negative : Bool) (mantissa : Nat) (exponent : Int) :
    isFiniteNumber (pack negative mantissa exponent) = true ↔
      exponent < 971 ∨ exponent = 971 ∧ mantissa ≠ 2 ^ 53 := by
  have kept (m : Nat) (e : Int) :
      isFiniteNumber (if 971 < e then .infinite negative else .finite negative m e) = true ↔ e ≤ 971 := by
    split
    · rename_i beyond
      exact iff_of_false Bool.false_ne_true (not_le.mpr beyond)
    · rename_i within
      exact iff_of_true rfl (not_lt.mp within)
  unfold pack
  split
  rename_i m e same
  rw [kept]
  split at same
  · rename_i carried
    have full : mantissa = 2 ^ 53 := beq_iff_eq.mp carried
    cases same
    omega
  · rename_i plain
    have short : mantissa ≠ 2 ^ 53 := fun full => plain (beq_iff_eq.mpr full)
    cases same
    omega

/-- At the greatest exponent all depends on whether the mantissa is rounded up to `2 ^ 53`. -/
theorem roundDiv_ne_full_iff {top : Nat} (isTop : top = 970 + 1) (denominator : 0 < den)
    (high : (num : ℚ) / den < 2 ^ ((54 + 970 : Nat) : Int)) :
    roundDiv num (den * Nat.pow 2 top) ≠ 2 ^ 53 ↔ (num : ℚ) / den < overflowBound := by
  have above : (0 : ℚ) < den := by exact_mod_cast denominator
  have unit : 0 < den * Nat.pow 2 top := Nat.mul_pos denominator (Nat.pow_pos two_pos)
  have scale : ((den * Nat.pow 2 top : Nat) : ℚ) = den * (2 * 2 ^ 970) := by
    rw [Nat.cast_mul, Nat.pow_eq, Nat.cast_pow, Nat.cast_two, isTop, pow_succ']
  rw [zpow_natCast, pow_add, div_lt_iff₀ above] at high
  have bound := overflowBound_eq
  generalize (2 : ℚ) ^ 970 = half at scale high bound
  have below : num < 2 ^ 53 * (den * Nat.pow 2 top) := by
    rw [← Nat.cast_lt (α := ℚ), Nat.cast_mul, scale, Nat.cast_pow, Nat.cast_two]
    linarith
  have short := roundDiv_le _ unit below
  have passed := odd_lt_roundDiv_iff num (by decide : (2 ^ 53 - 1) % 2 = 1) unit
  rw [← Nat.cast_le (α := ℚ), Nat.cast_mul, scale] at passed
  have decided : (num : ℚ) / den < overflowBound ↔
      ¬ 2 ^ 53 - 1 < roundDiv num (den * Nat.pow 2 top) := by
    rw [passed, div_lt_iff₀ above, bound, not_le]
    push_cast
    constructor <;> intro h <;> linarith
  rw [decided]
  omega

theorem isFiniteNumber_ofRatio (negative : Bool) (denominator : 0 < den) :
    isFiniteNumber (ofRatio negative num den) = true ↔ (num : ℚ) / den < overflowBound := by
  unfold ofRatio
  split
  · rename_i zero
    rw [beq_iff_eq.mp zero, Nat.cast_zero, zero_div]
    exact iff_of_true rfl (one_pos.trans_le one_le_overflowBound)
  rename_i nonzero
  have numerator : 0 < num := Nat.pos_of_ne_zero fun zero => nonzero (beq_iff_eq.mpr zero)
  obtain ⟨low, high⟩ := floorLog2_bounds numerator denominator
  dsimp only
  rw [isFiniteNumber_pack]
  generalize floorLog2 num den = k at low high ⊢
  rcases lt_trichotomy k 1023 with small | rfl | great
  · refine iff_of_true (Or.inl (by omega)) ?_
    calc (num : ℚ) / den < 2 ^ (k + 1) := high
      _ ≤ 2 ^ ((53 + 970 : Nat) : Int) := zpow_le_zpow_right₀ one_le_two (by omega)
      _ ≤ overflowBound := two_pow_le_overflowBound
  · obtain ⟨top, isTop⟩ : ∃ top : Nat, top = 970 + 1 := ⟨_, rfl⟩
    have greatest : max (-1074 : Int) (1023 - 52) = top := by omega
    rw [greatest, if_pos (Int.natCast_nonneg _), Int.toNat_natCast,
      roundDiv_ne_full_iff isTop denominator high]
    constructor
    · rintro (less | ⟨_, below⟩)
      · omega
      · exact below
    · exact fun below => Or.inr ⟨by omega, below⟩
  · refine iff_of_false (by omega) (not_lt.mpr ?_)
    calc overflowBound ≤ 2 ^ ((54 + 970 : Nat) : Int) := overflowBound_le_two_pow
      _ ≤ 2 ^ k := zpow_le_zpow_right₀ one_le_two (by omega)
      _ ≤ num / den := low

theorem length_toDigits_bounds {n : Nat} (positive : 0 < n) :
    (10 : ℚ) ^ ((Nat.toDigits 10 n).length - 1 : Int) ≤ n ∧
      (n : ℚ) < 10 ^ ((Nat.toDigits 10 n).length : Int) := by
  have some : 0 < (Nat.toDigits 10 n).length := Nat.length_toDigits_pos
  have within := @Nat.length_toDigits_le_iff 10 n
  generalize (Nat.toDigits 10 n).length = count at *
  have upper : n < 10 ^ count := (within (by decide) some).mp le_rfl
  have lower : 10 ^ (count - 1) ≤ n := by
    rcases Nat.eq_zero_or_pos (count - 1) with none | more
    · rw [none]
      exact positive
    · refine Nat.le_of_not_lt fun less => ?_
      have fewer := (within (by decide) more).mpr less
      omega
  refine ⟨?_, ?_⟩
  · rw [show (count : Int) - 1 = ((count - 1 : Nat) : Int) by omega, zpow_natCast]
    exact_mod_cast lower
  · rw [zpow_natCast]
    exact_mod_cast upper

/-- A decimal is rounded to a finite double exactly where it lies below the bound. -/
theorem isFiniteNumber_ofDecimal (negative : Bool) (digits : Nat) (exponent : Int) :
    isFiniteNumber (ofDecimal negative digits exponent) = true ↔
      (digits : ℚ) * 10 ^ exponent < overflowBound := by
  have power : (0 : ℚ) < 10 ^ exponent := by positivity
  rcases Nat.eq_zero_or_pos digits with rfl | positive
  · rw [Nat.cast_zero, zero_mul]
    exact iff_of_true rfl (one_pos.trans_le one_le_overflowBound)
  obtain ⟨low, high⟩ := length_toDigits_bounds positive
  have some : ¬ digits = 0 := positive.ne'
  unfold ofDecimal
  dsimp only
  generalize ((Nat.toDigits 10 digits).length : Int) = count at *
  split
  · rename_i tiny
    have small : count + exponent < -330 := by simpa [some] using tiny
    refine iff_of_true rfl ?_
    calc (digits : ℚ) * 10 ^ exponent < 10 ^ count * 10 ^ exponent := by gcongr
      _ = 10 ^ (count + exponent) := (zpow_add₀ (by norm_num) _ _).symm
      _ ≤ 10 ^ (0 : Int) := zpow_le_zpow_right₀ (by norm_num) (by omega)
      _ = 1 := zpow_zero _
      _ ≤ overflowBound := one_le_overflowBound
  · split
    · rename_i huge
      refine iff_of_false Bool.false_ne_true (not_lt.mpr ?_)
      calc overflowBound ≤ 10 ^ ((310 : Nat) : Int) := overflowBound_le_ten_pow
        _ ≤ 10 ^ (count - 1 + exponent) := zpow_le_zpow_right₀ (by norm_num) (by omega)
        _ = 10 ^ (count - 1) * 10 ^ exponent := zpow_add₀ (by norm_num) _ _
        _ ≤ digits * 10 ^ exponent := by gcongr
    · split
      · rename_i whole
        rw [isFiniteNumber_ofRatio negative one_pos, Nat.cast_one, div_one, Nat.cast_mul,
          cast_pow_toNat 10 whole, Nat.cast_ofNat]
      · rename_i fraction
        have unit : 0 < Nat.pow 10 (-exponent).toNat := Nat.pow_pos (by decide)
        rw [isFiniteNumber_ofRatio negative unit, cast_pow_toNat 10 (by omega), zpow_neg,
          div_inv_eq_mul, Nat.cast_ofNat]

end PayloadCheck.Number.Binary64
