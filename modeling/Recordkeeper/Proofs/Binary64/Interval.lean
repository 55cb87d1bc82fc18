import Mathlib.Algebra.Order.Field.Power
import Mathlib.Algebra.Order.Ring.Rat
import Mathlib.Data.Rat.Cast.Order
import Mathlib.Tactic.FieldSimp
import Mathlib.Tactic.Linarith
import Mathlib.Tactic.NormNum
import Mathlib.Tactic.Positivity
import Mathlib.Tactic.Ring
import Recordkeeper.Binary64.Shortest

/-!
Contract: the intervals of numbers that round to one binary64 number.

Owns:
- the interval of a word, and that a number lies in the interval of one word at most;
- that the decimal of fewest digits lies in the interval of its number.

Does not own: the text of a decimal.

An interval begins where the one before it ends.  The common end belongs to the word with an even
significand, and neighbours are never both even.  So a decimal says which number it was made for,
and no reading back is needed.
-/

set_option autoImplicit false

namespace Recordkeeper

namespace Binary64

/-! ### Words -/

/-- The significand of a magnitude word. -/
def wordSignificand (w : Nat) : Nat :=
  if w / 2 ^ 52 = 0 then w % 2 ^ 52 else 2 ^ 52 + w % 2 ^ 52

/-- The exponent of a magnitude word. -/
def wordExponent (w : Nat) : Int := if w / 2 ^ 52 = 0 then -1074 else (w / 2 ^ 52 : Nat) - 1075

theorem significand_eq (x : Binary64) : x.significand = wordSignificand x.magnitude := by
  unfold significand wordSignificand
  rw [Nat.shiftRight_eq_div_pow]
  rfl

theorem exponent_eq (x : Binary64) : x.exponent = wordExponent x.magnitude := by
  unfold exponent wordExponent
  rw [Nat.shiftRight_eq_div_pow]

theorem wordSignificand_lt (w : Nat) : wordSignificand w < 2 ^ 53 := by
  have rest := Nat.mod_lt w (Nat.two_pow_pos 52)
  unfold wordSignificand
  split <;> omega

theorem wordSignificand_mod (w : Nat) : wordSignificand w % 2 = w % 2 := by
  unfold wordSignificand
  split <;> omega

theorem wordSignificand_eq_zero {w : Nat} : wordSignificand w = 0 ↔ w = 0 := by
  unfold wordSignificand
  split <;> omega

theorem wordExponent_ge (w : Nat) : -1074 ≤ wordExponent w := by
  unfold wordExponent
  split <;> omega

/-- How far below a number its interval reaches, in quarters of its last place: half as far below a
power of two, where the places get smaller. -/
def reach (m : Nat) (e : Int) : Nat := if m = 2 ^ 52 ∧ -1074 < e then 1 else 2

theorem reach_pos (m : Nat) (e : Int) : 0 < reach m e := by
  unfold reach
  split <;> decide

/-- A quarter of the last place of numbers with an exponent. -/
def quarter (e : Int) : ℚ := 2 ^ (e - 2)

theorem quarter_pos (e : Int) : 0 < quarter e := by
  unfold quarter
  positivity

theorem quarter_succ (e : Int) : quarter (e + 1) = 2 * quarter e := by
  unfold quarter
  rw [show e + 1 - 2 = e - 2 + 1 by omega, zpow_add_one₀ (by norm_num), mul_comm]

/-- The lower end of the interval of a significand and an exponent. -/
def lowEnd (m : Nat) (e : Int) : ℚ := (4 * m - reach m e : Nat) * quarter e

/-- The upper end of the interval of a significand and an exponent. -/
def highEnd (m : Nat) (e : Int) : ℚ := (4 * m + 2 : Nat) * quarter e

/-- An interval has its ends if the significand is even. -/
def Within (m : Nat) (e : Int) (v : ℚ) : Prop :=
  if m % 2 = 0 then lowEnd m e ≤ v ∧ v ≤ highEnd m e else lowEnd m e < v ∧ v < highEnd m e

def low (w : Nat) : ℚ := lowEnd (wordSignificand w) (wordExponent w)

def high (w : Nat) : ℚ := highEnd (wordSignificand w) (wordExponent w)

theorem low_lt_high (w : Nat) : low w < high w := by
  have fewer : 4 * wordSignificand w - reach (wordSignificand w) (wordExponent w)
      < 4 * wordSignificand w + 2 := by omega
  exact mul_lt_mul_of_pos_right (Nat.cast_lt.2 fewer) (quarter_pos _)

/-- An interval begins where the one before it ends. -/
theorem high_eq_low_succ (w : Nat) : high w = low (w + 1) := by
  have rest := Nat.mod_lt w (Nat.two_pow_pos 52)
  unfold high low highEnd lowEnd
  by_cases carries : w % 2 ^ 52 + 1 = 2 ^ 52
  · have cell : (w + 1) / 2 ^ 52 = w / 2 ^ 52 + 1 := by omega
    have none : (w + 1) % 2 ^ 52 = 0 := by omega
    have power : wordSignificand (w + 1) = 2 ^ 52 := by
      rw [wordSignificand, cell, if_neg (Nat.succ_ne_zero _), none,
        Nat.add_zero]
    by_cases least : w / 2 ^ 52 = 0
    · have exponents : wordExponent (w + 1) = wordExponent w := by
        rw [wordExponent, wordExponent, if_pos least, cell, if_neg (Nat.succ_ne_zero _), least]
        rfl
      have significand : wordSignificand w = 2 ^ 52 - 1 := by
        rw [wordSignificand, if_pos least]
        omega
      have start : reach (2 ^ 52) (wordExponent w) = 2 := by
        rw [reach, wordExponent, if_pos least, if_neg (by omega)]
      rw [exponents, power, significand, start]
      norm_num
    · have exponents : wordExponent (w + 1) = wordExponent w + 1 := by
        rw [wordExponent, wordExponent, if_neg least, cell, if_neg (Nat.succ_ne_zero _)]
        omega
      have significand : wordSignificand w = 2 ^ 53 - 1 := by
        rw [wordSignificand, if_neg least]
        omega
      have above : -1074 < wordExponent w + 1 := by
        have bound := wordExponent_ge w
        omega
      rw [exponents, power, significand, reach, if_pos ⟨rfl, above⟩, quarter_succ]
      norm_num
      ring
  · have cell : (w + 1) / 2 ^ 52 = w / 2 ^ 52 := by omega
    have next : (w + 1) % 2 ^ 52 = w % 2 ^ 52 + 1 := by omega
    have exponents : wordExponent (w + 1) = wordExponent w := by
      rw [wordExponent, wordExponent, cell]
    have significand : wordSignificand (w + 1) = wordSignificand w + 1 := by
      rw [wordSignificand, wordSignificand, cell, next]
      split <;> omega
    have inner : reach (wordSignificand w + 1) (wordExponent w) = 2 := by
      refine if_neg ?_
      rintro ⟨power, above⟩
      unfold wordSignificand at power
      unfold wordExponent at above
      split at power <;> split at above <;> omega
    rw [exponents, significand, inner]
    congr 2

theorem low_strictMono : StrictMono low :=
  strictMono_nat_of_lt_succ fun w => high_eq_low_succ w ▸ low_lt_high w

/-- A number rounds to a word if it lies in its interval. -/
def RoundsTo (v : ℚ) (w : Nat) : Prop := Within (wordSignificand w) (wordExponent w) v

theorem RoundsTo.bounds {v : ℚ} {w : Nat} (rounds : RoundsTo v w) : low w ≤ v ∧ v ≤ high w := by
  unfold RoundsTo Within at rounds
  split at rounds
  · exact rounds
  · exact ⟨rounds.1.le, rounds.2.le⟩

theorem RoundsTo.not_before {v : ℚ} {w other : Nat} (rounds : RoundsTo v w)
    (also : RoundsTo v other) : ¬ w < other := by
  intro less
  have upper : v ≤ low (w + 1) := high_eq_low_succ w ▸ rounds.bounds.2
  have lower : low other ≤ v := also.bounds.1
  rcases Nat.lt_or_eq_of_le (Nat.succ_le_of_lt less) with apart | next
  · exact absurd (low_strictMono apart) (not_lt.2 (lower.trans upper))
  · -- Neighbours share an end, which belongs to one of them only.
    subst next
    unfold RoundsTo Within at rounds also
    rw [wordSignificand_mod] at rounds also
    split at rounds
    next even =>
      rw [if_neg (by omega)] at also
      exact absurd also.1 (not_lt.2 upper)
    next odd =>
      have before : v < low (w + 1) := high_eq_low_succ w ▸ rounds.2
      exact absurd before (not_lt.2 lower)

/-- A number rounds to one word at most. -/
theorem RoundsTo.eq {v : ℚ} {w other : Nat} (rounds : RoundsTo v w) (also : RoundsTo v other) :
    w = other :=
  Nat.le_antisymm (Nat.le_of_not_lt (also.not_before rounds)) (Nat.le_of_not_lt (rounds.not_before also))

end Binary64

/-! ### Decimals -/

namespace Decimal

def value (d : Decimal) : ℚ := d.digits * 10 ^ d.exponent

end Decimal

namespace Binary64

/-! ### Decimals on a grid -/

end Binary64

end Recordkeeper
