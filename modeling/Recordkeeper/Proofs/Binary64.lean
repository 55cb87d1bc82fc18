import Mathlib.Algebra.Group.Nat.Defs
import Mathlib.Data.Int.Order.Basic
import Recordkeeper.Binary64.Basic

/-!
Contract: numbers that come from integers.

Owns:
- that rounding never gives a NaN;
- the word of the number nearest to a natural;
- that a comparison answers the reverse the other way round;
- that integers of at most 53 bits keep their order.

Does not own: arithmetic.
-/

set_option autoImplicit false

namespace Recordkeeper.Binary64

theorem magnitude_ofParts (negative : Bool) {word : Nat} (small : word < 2 ^ 63) :
    (ofParts negative word).magnitude = word := by
  unfold magnitude ofParts
  rw [UInt64.toNat_ofNat']
  cases negative
  · show (0 + word) % 2 ^ 64 % 2 ^ 63 = word
    omega
  · show (2 ^ 63 + word) % 2 ^ 64 % 2 ^ 63 = word
    omega

theorem nearestWord_le (num den : Nat) : nearestWord num den ≤ infinityWord :=
  Nat.min_le_right _ _

theorem infinityWord_lt : infinityWord < 2 ^ 63 := by decide

theorem isNaN_ofRatio (negative : Bool) (num den : Nat) :
    (ofRatio negative num den).isNaN = false := by
  have bounded : (ofRatio negative num den).magnitude ≤ infinityWord := by
    unfold ofRatio
    split
    · rw [magnitude_ofParts _ (by decide)]
      exact Nat.zero_le _
    · have atMost := nearestWord_le num (max den 1)
      rw [magnitude_ofParts _ (Nat.lt_of_le_of_lt atMost infinityWord_lt)]
      exact atMost
  exact decide_eq_false (Nat.not_lt.2 bounded)

theorem isNaN_of_finite {x : Binary64} (finite : x.isFinite) : x.isNaN = false := by
  have below : x.magnitude < infinityWord := of_decide_eq_true finite
  exact decide_eq_false (Nat.lt_asymm below)

theorem compare?_isSome {x y : Binary64} (xNumber : x.isNaN = false) (yNumber : y.isNaN = false) :
    x.compare? y = some (compare x.rank y.rank) := by
  unfold compare?
  rw [xNumber, yNumber]
  rfl

theorem compare?_swap (x y : Binary64) : (x.compare? y).map Ordering.swap = y.compare? x := by
  unfold compare?
  rw [Bool.or_comm y.isNaN x.isNaN]
  split
  · rfl
  · rw [Option.map_some, ← Std.OrientedCmp.eq_swap]

/-! ### Integers -/

/-- Largest magnitude below which every integer is a number. -/
def exactLimit : Nat := 2 ^ 53

theorem roundHalfEven_one (n : Nat) : roundHalfEven n 1 = n := by
  unfold roundHalfEven
  simp [Nat.mod_one]

/-- The significand of the number nearest to a positive natural. -/
def roundedSignificand (n : Nat) : Nat := roundHalfEven (n * 2 ^ (52 - n.log2)) (2 ^ (n.log2 - 52))

/-- The leading bit of a natural moves to the place of the hidden one, and what then stands behind the
point is rounded. -/
theorem nearestWord_one {n : Nat} (positive : 0 < n) :
    nearestWord n 1 = min ((n.log2 + 1022) * 2 ^ 52 + roundedSignificand n) infinityWord := by
  have least : 2 ^ n.log2 ≤ n := Nat.log2_self_le (Nat.ne_of_gt positive)
  have one : (1 : Nat).log2 = 0 := rfl
  have first : scaleRatio n 1 ((n.log2 : Int) - (1 : Nat).log2) = (n, 2 ^ n.log2) := by
    unfold scaleRatio
    rw [one, if_pos (by omega), Nat.shiftLeft_eq, Nat.one_mul]
    congr 2
  have exponent : max ((n.log2 : Int) - (1 : Nat).log2 - 52) (-1074) = (n.log2 : Int) - 52 := by
    rw [one]
    omega
  have second : scaleRatio n 1 ((n.log2 : Int) - 52)
      = (n * 2 ^ (52 - n.log2), 2 ^ (n.log2 - 52)) := by
    unfold scaleRatio
    split
    next long =>
      rw [Nat.shiftLeft_eq, Nat.one_mul, show 52 - n.log2 = 0 by omega,
        show ((n.log2 : Int) - 52).toNat = n.log2 - 52 by omega, Nat.pow_zero, Nat.mul_one]
    next short =>
      rw [Nat.shiftLeft_eq, show n.log2 - 52 = 0 by omega,
        show (-((n.log2 : Int) - 52)).toNat = 52 - n.log2 by omega, Nat.pow_zero]
  unfold nearestWord
  dsimp only
  rw [first]
  dsimp only
  rw [if_pos least, exponent, second, Nat.shiftLeft_eq,
    show ((n.log2 : Int) - 52 + 1074).toNat = n.log2 + 1022 by omega]
  rfl

/-- A natural with its leading bit at the place of the hidden one. -/
theorem shifted_bounds {n : Nat} (positive : 0 < n) (short : n.log2 ≤ 52) :
    2 ^ 52 ≤ n * 2 ^ (52 - n.log2) ∧ n * 2 ^ (52 - n.log2) < 2 ^ 53 := by
  have least : 2 ^ n.log2 ≤ n := Nat.log2_self_le (Nat.ne_of_gt positive)
  have most : n < 2 ^ (n.log2 + 1) := Nat.lt_log2_self
  have low : 2 ^ n.log2 * 2 ^ (52 - n.log2) = 2 ^ 52 := by
    rw [← Nat.pow_add, Nat.add_sub_cancel' short]
  have high : 2 ^ (n.log2 + 1) * 2 ^ (52 - n.log2) = 2 ^ 53 := by
    rw [← Nat.pow_add]
    congr 1
    omega
  constructor
  · rw [← low]
    exact Nat.mul_le_mul_right _ least
  · rw [← high]
    exact Nat.mul_lt_mul_of_pos_right most (Nat.two_pow_pos _)

/-- A natural of at most 53 bits loses none of them. -/
theorem nearestWord_short {n : Nat} (positive : 0 < n) (short : n.log2 ≤ 52) :
    nearestWord n 1 = (n.log2 + 1022) * 2 ^ 52 + n * 2 ^ (52 - n.log2) := by
  have bounds := shifted_bounds positive short
  have significand : roundedSignificand n = n * 2 ^ (52 - n.log2) := by
    unfold roundedSignificand
    rw [show n.log2 - 52 = 0 by omega, Nat.pow_zero, roundHalfEven_one]
  rw [nearestWord_one positive, significand, infinityWord]
  omega

/-- Words of naturals of at most 53 bits are in the order of the naturals. -/
theorem nearestWord_lt {m n : Nat} (positive : 0 < m) (less : m < n) (small : n ≤ exactLimit) :
    nearestWord m 1 < nearestWord n 1 := by
  have mShort : m.log2 ≤ 52 := Nat.lt_succ_iff.1
    ((Nat.log2_lt (Nat.ne_of_gt positive)).2 (Nat.lt_of_lt_of_le less small))
  have mBounds := shifted_bounds positive mShort
  rw [nearestWord_short positive mShort]
  rcases Nat.lt_or_eq_of_le small with short | rfl
  · have nPositive : 0 < n := Nat.lt_trans positive less
    have nShort : n.log2 ≤ 52 :=
      Nat.lt_succ_iff.1 ((Nat.log2_lt (Nat.ne_of_gt nPositive)).2 short)
    have nBounds := shifted_bounds nPositive nShort
    rw [nearestWord_short nPositive nShort]
    have ordered : m.log2 ≤ n.log2 := by
      rw [Nat.le_log2 (Nat.ne_of_gt nPositive)]
      exact Nat.le_trans (Nat.log2_self_le (Nat.ne_of_gt positive)) (Nat.le_of_lt less)
    rcases Nat.lt_or_eq_of_le ordered with shorter | same
    · omega
    · rw [same]
      exact Nat.add_lt_add_left (Nat.mul_lt_mul_of_pos_right less (Nat.two_pow_pos _)) _
  · have top : nearestWord exactLimit 1 = 1076 * 2 ^ 52 := by decide
    rw [top]
    omega

def wordOf (n : Nat) : Nat := if n = 0 then 0 else nearestWord n 1

theorem wordOf_lt {m n : Nat} (less : m < n) (small : n ≤ exactLimit) : wordOf m < wordOf n := by
  have nPositive : n ≠ 0 := by omega
  unfold wordOf
  rw [if_neg nPositive]
  split
  next zero =>
    rcases Nat.lt_or_ge 1 n with more | one
    · exact Nat.lt_of_le_of_lt (Nat.zero_le _) (nearestWord_lt Nat.one_pos more small)
    · obtain rfl : n = 1 := by omega
      decide
  next positive => exact nearestWord_lt (Nat.pos_of_ne_zero positive) less small

theorem negative_ofParts (negative : Bool) {word : Nat} (small : word < 2 ^ 63) :
    (ofParts negative word).negative = negative := by
  unfold Binary64.negative ofParts
  rw [UInt64.toNat_ofNat']
  cases negative
  · exact decide_eq_false (by
      show ¬2 ^ 63 ≤ (0 + word) % 2 ^ 64
      omega)
  · exact decide_eq_true (by
      show 2 ^ 63 ≤ (2 ^ 63 + word) % 2 ^ 64
      omega)

theorem rank_ofParts (negative : Bool) {word : Nat} (small : word < 2 ^ 63) :
    (ofParts negative word).rank = if negative then -(word : Int) else word := by
  unfold rank
  rw [negative_ofParts negative small, magnitude_ofParts negative small]

theorem ofInt_eq_ofParts (n : Int) : ofInt n = ofParts (n < 0) (wordOf n.natAbs) := by
  unfold ofInt ofRatio wordOf
  split <;> rfl

theorem wordOf_lt_limit (n : Nat) : wordOf n < 2 ^ 63 := by
  unfold wordOf
  split
  · decide
  · exact Nat.lt_of_le_of_lt (nearestWord_le n 1) infinityWord_lt

theorem rank_ofInt (n : Int) :
    (ofInt n).rank = if n < 0 then -(wordOf n.natAbs : Int) else wordOf n.natAbs := by
  rw [ofInt_eq_ofParts, rank_ofParts _ (wordOf_lt_limit _)]
  simp only [decide_eq_true_eq]

theorem rank_ofInt_lt {m n : Int} (mSmall : m.natAbs ≤ exactLimit) (nSmall : n.natAbs ≤ exactLimit)
    (less : m < n) : (ofInt m).rank < (ofInt n).rank := by
  rw [rank_ofInt, rank_ofInt]
  split
  next mNegative =>
    have positive := wordOf_lt (m := 0) (n := m.natAbs) (by omega) mSmall
    split
    next nNegative =>
      have ordered := wordOf_lt (m := n.natAbs) (n := m.natAbs) (by omega) mSmall
      omega
    next => omega
  next mNatural =>
    rw [if_neg (by omega)]
    have ordered := wordOf_lt (m := m.natAbs) (n := n.natAbs) (by omega) nSmall
    omega

/-- Integers of at most 53 bits compare as numbers as they do as integers. -/
theorem compare?_ofInt {m n : Int} (mSmall : m.natAbs ≤ exactLimit)
    (nSmall : n.natAbs ≤ exactLimit) : (ofInt m).compare? (ofInt n) = some (compare m n) := by
  have numbers (k : Int) : (ofInt k).isNaN = false := isNaN_ofRatio _ _ _
  rw [compare?_isSome (numbers m) (numbers n)]
  congr 1
  rcases lt_trichotomy m n with less | rfl | greater
  · rw [compare_lt_iff_lt.2 less, compare_lt_iff_lt.2 (rank_ofInt_lt mSmall nSmall less)]
  · rw [compare_eq_iff_eq.2 rfl, compare_eq_iff_eq.2 rfl]
  · rw [compare_gt_iff_gt.2 greater, compare_gt_iff_gt.2 (rank_ofInt_lt nSmall mSmall greater)]

end Recordkeeper.Binary64
