import Recordkeeper.Proofs.Binary64.Exact
import Recordkeeper.Proofs.Binary64.Rounding

/-!
Contract: the order of numbers and of the integers that are rounded to them.

Owns:
- that numbers stand in the order of their values;
- that a finite number has no fraction or a magnitude below 2 ^ 53;
- that rounding an integer does not move it past a finite number.

Does not own: the order of integers among each other.
-/

set_option autoImplicit false

namespace Recordkeeper.Binary64

/-! ### Places -/

theorem wordValue_strictMono : StrictMono wordValue := by
  intro v w less
  have upper : wordValue v ≤ low (v + 1) := high_eq_low_succ v ▸ (roundsTo_wordValue v).bounds.2
  have next : low (v + 1) ≤ low w := low_strictMono.monotone less
  have lower : low w ≤ wordValue w := (roundsTo_wordValue w).bounds.1
  exact lt_of_le_of_ne (upper.trans (next.trans lower)) (wordValue_injective.ne less.ne)

/-- The value of the numbers at a place. -/
def placeValue (place : Int) : ℚ :=
  if place < 0 then -wordValue place.natAbs else wordValue place.natAbs

theorem exact_eq_placeValue (x : Binary64) : x.exact = placeValue x.rank := by
  rw [exact_eq, placeValue, rank]
  cases x.negative with
  | false => rw [if_neg Bool.false_ne_true, if_neg Bool.false_ne_true, if_neg (by omega),
      Int.natAbs_natCast]
  | true =>
      rw [if_pos rfl, if_pos rfl, Int.natAbs_neg, Int.natAbs_natCast]
      split
      next => rfl
      next zero =>
        obtain none : x.magnitude = 0 := by omega
        rw [none, wordValue_zero, neg_zero]

theorem placeValue_lt {m n : Int} (less : m < n) : placeValue m < placeValue n := by
  unfold placeValue
  split
  next mNegative =>
    have mWord := wordValue_strictMono (show 0 < m.natAbs by omega)
    rw [wordValue_zero] at mWord
    split
    next => exact neg_lt_neg (wordValue_strictMono (by omega))
    next => linarith [wordValue_nonneg n.natAbs]
  next =>
    rw [if_neg (by omega)]
    exact wordValue_strictMono (by omega)

theorem exact_le_iff {x y : Binary64} : x.exact ≤ y.exact ↔ x.rank ≤ y.rank := by
  have increasing : StrictMono placeValue := fun _ _ => placeValue_lt
  rw [exact_eq_placeValue, exact_eq_placeValue, increasing.le_iff_le]

/-- Numbers compare by their places as they do by their values. -/
theorem compare_rank (x y : Binary64) : compare x.rank y.rank = compare x.exact y.exact := by
  rw [exact_eq_placeValue, exact_eq_placeValue]
  rcases lt_trichotomy x.rank y.rank with less | same | greater
  · rw [compare_lt_iff_lt.2 less, compare_lt_iff_lt.2 (placeValue_lt less)]
  · rw [compare_eq_iff_eq.2 same, compare_eq_iff_eq.2 (congrArg placeValue same)]
  · rw [compare_gt_iff_gt.2 greater, compare_gt_iff_gt.2 (placeValue_lt greater)]

/-! ### Rounded integers -/

theorem roundHalfEven_mul (n : Nat) {den : Nat} (positive : 0 < den) :
    roundHalfEven (n * den) den = n := by
  unfold roundHalfEven
  rw [Nat.mul_mod_left, Nat.mul_div_cancel _ positive]
  simp [positive.ne]

/-- A significand of 53 bits before zeros is the number it is rounded to. -/
theorem nearestWord_shifted {significand : Nat} (least : 2 ^ 52 ≤ significand)
    (most : significand < 2 ^ 53) (zeros : Nat) :
    nearestWord (significand * 2 ^ zeros) 1
      = min ((zeros + 1074) * 2 ^ 52 + significand) infinityWord := by
  have positive : 0 < significand * 2 ^ zeros :=
    Nat.mul_pos (Nat.lt_of_lt_of_le (Nat.two_pow_pos 52) least) (Nat.two_pow_pos zeros)
  have length : (significand * 2 ^ zeros).log2 = 52 + zeros := by
    rw [Nat.log2_eq_iff positive.ne', Nat.pow_add, Nat.add_right_comm, Nat.pow_add]
    exact ⟨Nat.mul_le_mul_right _ least, Nat.mul_lt_mul_of_pos_right most (Nat.two_pow_pos zeros)⟩
  have rounded : roundedSignificand (significand * 2 ^ zeros) = significand := by
    unfold roundedSignificand
    rw [length, Nat.sub_add_eq, Nat.sub_self, Nat.zero_sub, Nat.pow_zero, Nat.mul_one,
      Nat.add_sub_cancel_left, roundHalfEven_mul _ (Nat.two_pow_pos zeros)]
  rw [nearestWord_one positive, rounded, length]
  congr 3
  omega

/-- A word of at least 2 ^ 53 has no fraction, and is what its integer is rounded to. -/
theorem exists_wordOf {w : Nat} (finite : w < infinityWord) (large : (exactLimit : ℚ) ≤ wordValue w) :
    ∃ n : Nat, 0 < n ∧ wordValue w = n ∧ wordOf n = w := by
  have most := wordSignificand_lt w
  have aboveOne : 1 ≤ wordExponent w := by
    by_contra small
    have fraction : (2 : ℚ) ^ wordExponent w ≤ 1 := zpow_le_one_of_nonpos₀ (by norm_num) (by omega)
    have below : (wordSignificand w : ℚ) < exactLimit := Nat.cast_lt.2 most
    have value : wordValue w ≤ wordSignificand w :=
      mul_le_of_le_one_right (Nat.cast_nonneg _) fraction
    linarith
  have normal : w / 2 ^ 52 ≠ 0 := by
    intro least
    rw [wordExponent, if_pos least] at aboveOne
    omega
  obtain ⟨zeros, exponent⟩ := Int.eq_ofNat_of_zero_le (show 0 ≤ wordExponent w by omega)
  have cell : w / 2 ^ 52 = zeros + 1075 := by
    rw [wordExponent, if_neg normal] at exponent
    omega
  have significand : wordSignificand w = 2 ^ 52 + w % 2 ^ 52 := by
    rw [wordSignificand, if_neg normal]
  have least : 2 ^ 52 ≤ wordSignificand w := by omega
  have positive : 0 < wordSignificand w * 2 ^ zeros :=
    Nat.mul_pos (Nat.lt_of_lt_of_le (Nat.two_pow_pos 52) least) (Nat.two_pow_pos zeros)
  refine ⟨wordSignificand w * 2 ^ zeros, positive, ?_, ?_⟩
  · rw [wordValue, exponent, Nat.cast_mul, Nat.cast_pow]
    norm_cast
  · rw [wordOf, if_neg positive.ne', nearestWord_shifted least most]
    omega

/-- A finite number is below 2 ^ 53 or stands where its integer is rounded to. -/
theorem small_or_ofInt {x : Binary64} (finite : x.isFinite) :
    |x.exact| < exactLimit ∨ ∃ n : Int, x.exact = n ∧ (ofInt n).rank = x.rank := by
  have size : |x.exact| = wordValue x.magnitude := by
    rw [exact_eq]
    split
    · rw [abs_neg, abs_of_nonneg (wordValue_nonneg _)]
    · exact abs_of_nonneg (wordValue_nonneg _)
  rw [size]
  refine (lt_or_ge _ _).imp id fun large => ?_
  obtain ⟨n, positive, value, word⟩ := exists_wordOf (of_decide_eq_true finite) large
  rw [exact_eq, rank]
  cases x.negative with
  | false =>
      refine ⟨n, ?_, ?_⟩
      · rw [if_neg Bool.false_ne_true, value, Int.cast_natCast]
      · rw [rank_ofInt, if_neg (by omega), Int.natAbs_natCast, word, if_neg Bool.false_ne_true]
  | true =>
      refine ⟨-n, ?_, ?_⟩
      · rw [if_pos rfl, value, Int.cast_neg, Int.cast_natCast]
      · rw [rank_ofInt, if_pos (by omega), Int.natAbs_neg, Int.natAbs_natCast, word, if_pos rfl]

/-- An integer below a number is not rounded past it. -/
theorem rank_ofInt_le {x : Binary64} (finite : x.isFinite) {n : Int} (below : n ≤ x.exact) :
    (ofInt n).rank ≤ x.rank := by
  rcases small_or_ofInt finite with small | ⟨m, value, place⟩
  · obtain ⟨lower, upper⟩ := abs_lt.1 small
    have short : (max n (-exactLimit)).natAbs ≤ exactLimit := by
      have less : n < (exactLimit : Int) := by exact_mod_cast below.trans_lt upper
      omega
    have between : ((max n (-exactLimit) : Int) : ℚ) ≤ x.exact := by
      rw [Int.cast_max]
      exact max_le below (by exact_mod_cast lower.le)
    rw [← (exact_ofInt short).2, exact_le_iff] at between
    exact (rank_ofInt_mono (Int.le_max_left _ _)).trans between
  · rw [value, Int.cast_le] at below
    exact place ▸ rank_ofInt_mono below

/-- An integer above a number is not rounded past it. -/
theorem le_rank_ofInt {x : Binary64} (finite : x.isFinite) {n : Int} (above : x.exact ≤ n) :
    x.rank ≤ (ofInt n).rank := by
  rcases small_or_ofInt finite with small | ⟨m, value, place⟩
  · obtain ⟨lower, upper⟩ := abs_lt.1 small
    have short : (min n exactLimit).natAbs ≤ exactLimit := by
      have greater : -(exactLimit : Int) < n := by exact_mod_cast lower.trans_le above
      omega
    have between : x.exact ≤ ((min n exactLimit : Int) : ℚ) := by
      rw [Int.cast_min]
      exact le_min above (by exact_mod_cast upper.le)
    rw [← (exact_ofInt short).2, exact_le_iff] at between
    exact between.trans (rank_ofInt_mono (Int.min_le_left _ _))
  · rw [value, Int.cast_le] at above
    exact place ▸ rank_ofInt_mono above

end Recordkeeper.Binary64
