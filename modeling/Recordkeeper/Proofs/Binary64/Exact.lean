import Recordkeeper.Proofs.Binary64
import Recordkeeper.Proofs.Binary64.Interval

/-!
Contract: the rational number that a binary64 number is.

Owns:
- that numbers are equal if and only if they stand in one place;
- integers of at most 53 bits, which are numbers;
- the integer that a number without fraction is.

Does not own: rounding.
-/

set_option autoImplicit false

namespace Recordkeeper.Binary64

/-- The value of a finite number. -/
def exact (x : Binary64) : ℚ := x.toFraction.1 / x.toFraction.2

/-! ### Words -/

def wordValue (w : Nat) : ℚ := wordSignificand w * 2 ^ wordExponent w

theorem wordValue_eq_quarters (w : Nat) :
    wordValue w = (4 * wordSignificand w : Nat) * quarter (wordExponent w) := by
  have quarters : (2 : ℚ) ^ wordExponent w = 4 * quarter (wordExponent w) := by
    unfold quarter
    rw [zpow_sub₀ (by norm_num)]
    norm_num
    ring
  rw [wordValue, quarters]
  push_cast
  ring

/-- A number lies in its own interval. -/
theorem roundsTo_wordValue (w : Nat) : RoundsTo (wordValue w) w := by
  have positive := quarter_pos (wordExponent w)
  have some := reach_pos (wordSignificand w) (wordExponent w)
  have below : lowEnd (wordSignificand w) (wordExponent w) ≤ wordValue w := by
    rw [wordValue_eq_quarters]
    exact mul_le_mul_of_nonneg_right (Nat.cast_le.2 (Nat.sub_le _ _)) positive.le
  have above : wordValue w < highEnd (wordSignificand w) (wordExponent w) := by
    rw [wordValue_eq_quarters]
    exact mul_lt_mul_of_pos_right (Nat.cast_lt.2 (by omega)) positive
  unfold RoundsTo Within
  split
  next => exact ⟨below, above.le⟩
  next odd =>
    refine ⟨?_, above⟩
    rw [wordValue_eq_quarters]
    exact mul_lt_mul_of_pos_right (Nat.cast_lt.2 (by omega)) positive

theorem wordValue_injective : Function.Injective wordValue := by
  intro v w same
  have rounds := roundsTo_wordValue v
  rw [same] at rounds
  exact rounds.eq (roundsTo_wordValue w)

theorem wordValue_zero : wordValue 0 = 0 := by
  rw [wordValue, wordSignificand_eq_zero.2 rfl, Nat.cast_zero, zero_mul]

theorem wordValue_nonneg (w : Nat) : 0 ≤ wordValue w := by
  unfold wordValue
  positivity

/-- A number has its sign and the value of its word. -/
theorem exact_eq (x : Binary64) :
    x.exact = if x.negative then -wordValue x.magnitude else wordValue x.magnitude := by
  have value : ((x.significand <<< x.exponent.toNat : Nat) : ℚ) / (1 <<< (-x.exponent).toNat : Nat)
      = wordValue x.magnitude := by
    rw [Nat.shiftLeft_eq, Nat.shiftLeft_eq, Nat.one_mul, wordValue, ← significand_eq, ← exponent_eq]
    push_cast
    rw [mul_div_assoc]
    congr 1
    rw [← zpow_natCast, ← zpow_natCast, ← zpow_sub₀ (by norm_num)]
    congr 1
    omega
  unfold exact toFraction
  dsimp only
  split
  · rw [Int.cast_neg, neg_div, Int.cast_natCast, value]
  · rw [Int.cast_natCast, value]

/-- Of a number and one of the other sign both are zero if they are equal. -/
theorem wordValue_eq_neg {v w : Nat} : wordValue v = -wordValue w ↔ v = 0 ∧ w = 0 := by
  constructor
  · intro same
    have zero (u : Nat) (none : wordValue u = 0) : u = 0 := by
      rw [← wordValue_zero] at none
      exact wordValue_injective none
    have vWord := wordValue_nonneg v
    have wWord := wordValue_nonneg w
    exact ⟨zero v (by linarith), zero w (by linarith)⟩
  · rintro ⟨rfl, rfl⟩
    rw [wordValue_zero, neg_zero]

/-- Two numbers are equal if and only if they stand in one place; zero has two signs. -/
theorem exact_eq_iff {x y : Binary64} : x.exact = y.exact ↔ x.rank = y.rank := by
  rw [exact_eq, exact_eq]
  unfold rank
  cases x.negative <;> cases y.negative
  · simp [wordValue_injective.eq_iff]
  · simp only [Bool.false_eq_true, if_false, if_true, wordValue_eq_neg]
    omega
  · simp only [Bool.false_eq_true, if_false, if_true, neg_eq_iff_eq_neg, wordValue_eq_neg]
    omega
  · simp [wordValue_injective.eq_iff]

/-! ### Integers -/

/-- A natural of at most 53 bits is the number it is rounded to. -/
theorem wordValue_nearestWord {n : Nat} (positive : 0 < n) (small : n ≤ exactLimit) :
    wordValue (nearestWord n 1) = n ∧ nearestWord n 1 < infinityWord := by
  rcases Nat.lt_or_eq_of_le small with short | rfl
  · have length : n.log2 ≤ 52 :=
      Nat.lt_succ_iff.1 ((Nat.log2_lt (Nat.ne_of_gt positive)).2 short)
    have bounds := shifted_bounds positive length
    have word := nearestWord_short positive length
    have top : infinityWord = 2047 * 2 ^ 52 := rfl
    refine ⟨?_, by omega⟩
    have cell : nearestWord n 1 / 2 ^ 52 = n.log2 + 1023 := by omega
    have significand : wordSignificand (nearestWord n 1) = n * 2 ^ (52 - n.log2) := by
      rw [wordSignificand, cell, if_neg (Nat.succ_ne_zero _)]
      omega
    have exponent : wordExponent (nearestWord n 1) = -((52 - n.log2 : Nat) : Int) := by
      rw [wordExponent, cell, if_neg (Nat.succ_ne_zero _)]
      omega
    rw [wordValue, significand, exponent, zpow_neg, zpow_natCast]
    push_cast
    field_simp
  · have word : nearestWord exactLimit 1 = 1076 * 2 ^ 52 := by decide
    rw [word]
    refine ⟨?_, by decide⟩
    have significand : wordSignificand (1076 * 2 ^ 52) = 2 ^ 52 := by decide
    have exponent : wordExponent (1076 * 2 ^ 52) = 1 := by decide
    rw [wordValue, significand, exponent, exactLimit]
    norm_num

theorem exact_ofInt {n : Int} (small : n.natAbs ≤ exactLimit) :
    (ofInt n).isFinite ∧ (ofInt n).exact = n := by
  have word : wordValue (wordOf n.natAbs) = n.natAbs ∧ wordOf n.natAbs < infinityWord := by
    unfold wordOf
    split
    next zero =>
      rw [zero, wordValue_zero]
      exact ⟨Nat.cast_zero.symm, by decide⟩
    next positive => exact wordValue_nearestWord (Nat.pos_of_ne_zero positive) small
  have limit := wordOf_lt_limit n.natAbs
  have size : ((n.natAbs : ℚ)) = |(n : ℚ)| := by
    rw [Nat.cast_natAbs, Int.cast_abs]
  rw [ofInt_eq_ofParts]
  constructor
  · unfold isFinite
    rw [magnitude_ofParts _ limit]
    exact decide_eq_true word.2
  · rw [exact_eq, negative_ofParts _ limit, magnitude_ofParts _ limit, word.1, size]
    by_cases negative : n < 0
    · rw [decide_eq_true negative, if_pos rfl, abs_of_neg (Int.cast_lt_zero.2 negative), neg_neg]
    · rw [decide_eq_false negative, if_neg Bool.false_ne_true,
        abs_of_nonneg (Int.cast_nonneg (Int.not_lt.1 negative))]

theorem toFraction_pos (x : Binary64) : 0 < x.toFraction.2 := by
  show 0 < 1 <<< (-x.exponent).toNat
  rw [Nat.shiftLeft_eq, Nat.one_mul]
  exact Nat.two_pow_pos _

theorem exact_eq_intCast_iff {x : Binary64} {n : Int} :
    x.exact = n ↔ n * x.toFraction.2 = x.toFraction.1 := by
  have positive : (x.toFraction.2 : ℚ) ≠ 0 := Nat.cast_ne_zero.2 (toFraction_pos x).ne'
  rw [exact, div_eq_iff positive, eq_comm]
  exact_mod_cast Iff.rfl

/-- What is left of a number without fraction when its fraction is dropped is the number. -/
theorem exact_truncate {x : Binary64} (integral : x.isIntegral) :
    x.isFinite ∧ x.exact = (x.truncate?.getD 0 : Int) := by
  obtain ⟨finite, divides⟩ := (Bool.and_eq_true _ _).mp integral
  refine ⟨finite, ?_⟩
  rw [exact_eq_intCast_iff, truncate?, if_pos finite, Option.getD_some]
  exact Int.tdiv_mul_cancel (Int.dvd_of_emod_eq_zero (eq_of_beq divides))

end Recordkeeper.Binary64
