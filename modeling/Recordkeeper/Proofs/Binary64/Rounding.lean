import Recordkeeper.Proofs.Binary64

/-!
Contract: integers of any size rounded to numbers.

Owns:
- that rounding to the nearest integer keeps the order of numerators;
- that a longer natural has a word at least as great;
- that rounding keeps the order of integers, and may only put two of them in one place;
- integers in one place are rounded to one number, and none of them is exact.

Does not own: which numbers are integers.
-/

set_option autoImplicit false

namespace Recordkeeper.Binary64

/-! ### Rounding to integers -/

section RoundHalfEven

variable {m n den : Nat}

theorem roundHalfEven_ge (num den : Nat) : num / den ≤ roundHalfEven num den := by
  unfold roundHalfEven
  dsimp only
  split <;> omega

theorem roundHalfEven_le (num den : Nat) : roundHalfEven num den ≤ num / den + 1 := by
  unfold roundHalfEven
  dsimp only
  split <;> omega

theorem roundHalfEven_mono (ordered : m ≤ n) :
    roundHalfEven m den ≤ roundHalfEven n den := by
  rcases Nat.lt_or_eq_of_le (Nat.div_le_div_right (c := den) ordered) with less | same
  · have low := roundHalfEven_le m den
    have high := roundHalfEven_ge n den
    omega
  · -- With one quotient the remainders are ordered, and what lifts the smaller lifts the greater.
    have mSplit := Nat.div_add_mod m den
    have nSplit := Nat.div_add_mod n den
    rw [same] at mSplit
    have remainders : m % den ≤ n % den := by omega
    unfold roundHalfEven
    dsimp only
    rw [same]
    split
    next lifted =>
      have lifts : (decide (den < 2 * (n % den)) || 2 * (n % den) == den && n / den % 2 == 1)
          = true := by
        simp only [Bool.or_eq_true, decide_eq_true_eq, Bool.and_eq_true, beq_iff_eq] at lifted ⊢
        omega
      exact Nat.le_of_eq (if_pos lifts).symm
    next =>
      split <;> omega

end RoundHalfEven

/-! ### Naturals -/

/-- A significand has 53 bits, or is the next power of two after rounding. -/
theorem roundedSignificand_bounds {n : Nat} (positive : 0 < n) :
    2 ^ 52 ≤ roundedSignificand n ∧ roundedSignificand n ≤ 2 ^ 53 := by
  have least : 2 ^ n.log2 ≤ n := Nat.log2_self_le (Nat.ne_of_gt positive)
  have most : n < 2 ^ (n.log2 + 1) := Nat.lt_log2_self
  have scale : 2 ^ n.log2 * 2 ^ (52 - n.log2) = 2 ^ 52 * 2 ^ (n.log2 - 52) := by
    rw [← Nat.pow_add, ← Nat.pow_add]
    congr 1
    omega
  have den : 0 < 2 ^ (n.log2 - 52) := Nat.two_pow_pos _
  have low : 2 ^ 52 ≤ n * 2 ^ (52 - n.log2) / 2 ^ (n.log2 - 52) := by
    rw [Nat.le_div_iff_mul_le den, ← scale]
    exact Nat.mul_le_mul_right _ least
  have high : n * 2 ^ (52 - n.log2) / 2 ^ (n.log2 - 52) < 2 ^ 53 := by
    rw [Nat.div_lt_iff_lt_mul den, show (2 : Nat) ^ 53 = 2 ^ 52 * 2 from rfl, Nat.mul_right_comm,
      ← scale, Nat.mul_right_comm, ← Nat.pow_succ]
    exact Nat.mul_lt_mul_of_pos_right most (Nat.two_pow_pos _)
  constructor
  · exact Nat.le_trans low (roundHalfEven_ge _ _)
  · exact Nat.le_trans (roundHalfEven_le _ _) high

theorem nearestWord_mono {m n : Nat} (positive : 0 < m) (ordered : m ≤ n) :
    nearestWord m 1 ≤ nearestWord n 1 := by
  have nPositive : 0 < n := Nat.lt_of_lt_of_le positive ordered
  have logs : m.log2 ≤ n.log2 := by
    rw [Nat.le_log2 (Nat.ne_of_gt nPositive)]
    exact Nat.le_trans (Nat.log2_self_le (Nat.ne_of_gt positive)) ordered
  have mBounds := roundedSignificand_bounds positive
  have nBounds := roundedSignificand_bounds nPositive
  have words : (m.log2 + 1022) * 2 ^ 52 + roundedSignificand m
      ≤ (n.log2 + 1022) * 2 ^ 52 + roundedSignificand n := by
    rcases Nat.lt_or_eq_of_le logs with shorter | same
    · omega
    · have significands : roundedSignificand m ≤ roundedSignificand n := by
        unfold roundedSignificand
        rw [same]
        exact roundHalfEven_mono (Nat.mul_le_mul_right _ ordered)
      omega
  rw [nearestWord_one positive, nearestWord_one nPositive]
  omega

theorem nearestWord_pos {n : Nat} (positive : 0 < n) : 0 < nearestWord n 1 := by
  have bounds := roundedSignificand_bounds positive
  have top : 0 < infinityWord := by decide
  rw [nearestWord_one positive]
  omega

theorem wordOf_mono {m n : Nat} (ordered : m ≤ n) : wordOf m ≤ wordOf n := by
  unfold wordOf
  split
  next => exact Nat.zero_le _
  next mPositive =>
    rw [if_neg (by omega)]
    exact nearestWord_mono (Nat.pos_of_ne_zero mPositive) ordered

theorem wordOf_pos {n : Nat} (positive : 0 < n) : 0 < wordOf n := by
  unfold wordOf
  rw [if_neg (Nat.ne_of_gt positive)]
  exact nearestWord_pos positive

/-! ### Integers -/

/-- Rounding keeps the order of integers. -/
theorem rank_ofInt_mono {m n : Int} (ordered : m ≤ n) : (ofInt m).rank ≤ (ofInt n).rank := by
  rw [rank_ofInt, rank_ofInt]
  split
  next mNegative =>
    split
    next nNegative =>
      have words := wordOf_mono (show n.natAbs ≤ m.natAbs by omega)
      omega
    next => omega
  next =>
    rw [if_neg (by omega)]
    have words := wordOf_mono (show m.natAbs ≤ n.natAbs by omega)
    omega

/-- Integers are rounded to one number if they are rounded to one place. -/
theorem ofInt_eq_iff {m n : Int} : ofInt m = ofInt n ↔ (ofInt m).rank = (ofInt n).rank := by
  constructor
  · intro same
    rw [same]
  · intro same
    rw [rank_ofInt, rank_ofInt] at same
    have sign : m < 0 ↔ n < 0 := by
      constructor <;> intro negative
      · by_contra natural
        rw [if_pos negative, if_neg natural] at same
        have positive := wordOf_pos (show 0 < m.natAbs by omega)
        omega
      · by_contra natural
        rw [if_neg natural, if_pos negative] at same
        have positive := wordOf_pos (show 0 < n.natAbs by omega)
        omega
    have words : wordOf m.natAbs = wordOf n.natAbs := by
      by_cases negative : m < 0
      · rw [if_pos negative, if_pos (sign.1 negative)] at same
        omega
      · rw [if_neg negative, if_neg fun other => negative (sign.2 other)] at same
        omega
    rw [ofInt_eq_ofParts, ofInt_eq_ofParts, words, decide_eq_decide.2 sign]

/-- An integer of at most 53 bits has a place of its own. -/
theorem rank_ofInt_ne {m n : Int} (small : m.natAbs < exactLimit) (differ : m ≠ n) :
    (ofInt m).rank ≠ (ofInt n).rank := by
  have limit : exactLimit = 2 ^ 53 := rfl
  rcases Int.lt_or_lt_of_ne differ with less | greater
  · have step := rank_ofInt_lt (m := m) (n := min n exactLimit) (by omega) (by omega) (by omega)
    have rest := rank_ofInt_mono (Int.min_le_left n exactLimit)
    omega
  · have step := rank_ofInt_lt (m := max n (-exactLimit)) (n := m) (by omega) (by omega) (by omega)
    have rest := rank_ofInt_mono (Int.le_max_left n (-exactLimit))
    omega

/-- Two integers that are rounded to one number have more than 53 bits both. -/
theorem exactLimit_le_of_ofInt_eq {m n : Int} (differ : m ≠ n) (same : ofInt m = ofInt n) :
    exactLimit ≤ m.natAbs ∧ exactLimit ≤ n.natAbs := by
  have places := congrArg rank same
  constructor
  · by_contra small
    exact rank_ofInt_ne (Nat.lt_of_not_le small) differ places
  · by_contra small
    exact rank_ofInt_ne (Nat.lt_of_not_le small) differ.symm places.symm

end Recordkeeper.Binary64
