/-!
Contract: binary64 floating-point numbers as 64-bit words, with every operation stated by
exact integer arithmetic followed by at most one rounding.

Owns:
- the decoding of a word into sign, significand and exponent;
- rounding a ratio of naturals to the nearest number, ties to the even significand;
- order, equality, the four operations, integer powers and truncation.

Does not own: decimal text, which lives in `Binary64.Shortest` and `Binary64.Text`.
-/

set_option autoImplicit false

namespace Recordkeeper

/-- A binary64 number, kept as its 64-bit word.  Two words are equal exactly when the
numbers are identical, so `-0` and `0` differ and a NaN equals itself; numeric equality is
`Binary64.numEq`. -/
structure Binary64 where
  bits : UInt64
  deriving DecidableEq, Inhabited, Repr

namespace Binary64

/-- Magnitude word of infinity: all exponent bits set, empty fraction. -/
def infinityWord : Nat := 2047 <<< 52

def ofParts (negative : Bool) (magnitude : Nat) : Binary64 :=
  ⟨UInt64.ofNat ((if negative then 1 <<< 63 else 0) + magnitude)⟩

def zero : Binary64 := ⟨0⟩

def nan : Binary64 := ofParts false (infinityWord + 1 <<< 51)

def infinity (negative : Bool) : Binary64 := ofParts negative infinityWord

def negative (x : Binary64) : Bool := 1 <<< 63 ≤ x.bits.toNat

def magnitude (x : Binary64) : Nat := x.bits.toNat % 1 <<< 63

def isNaN (x : Binary64) : Bool := infinityWord < x.magnitude

def isInfinite (x : Binary64) : Bool := x.magnitude == infinityWord

def isFinite (x : Binary64) : Bool := x.magnitude < infinityWord

def isZero (x : Binary64) : Bool := x.magnitude == 0

/-- Position on the number line: for numbers other than NaN, the order of ranks is the
order of the numbers, and both zeros have rank 0. -/
def rank (x : Binary64) : Int :=
  if x.negative then -(x.magnitude : Int) else x.magnitude

/-- Whole significand of a finite number: its absolute value is
`significand * 2 ^ exponent`. -/
def significand (x : Binary64) : Nat :=
  if x.magnitude >>> 52 = 0 then x.magnitude % 1 <<< 52
  else 1 <<< 52 + x.magnitude % 1 <<< 52

def exponent (x : Binary64) : Int :=
  if x.magnitude >>> 52 = 0 then -1074
  else (x.magnitude >>> 52 : Nat) - 1075

/-- Numeric order; a NaN is comparable with nothing. -/
def compare? (x y : Binary64) : Option Ordering :=
  if x.isNaN || y.isNaN then none else some (compare x.rank y.rank)

/-- Numeric equality: both zeros are equal, a NaN equals nothing. -/
def numEq (x y : Binary64) : Bool := x.compare? y == some .eq

/-! ### Rounding -/

def scaleRatio (num den : Nat) (e : Int) : Nat × Nat :=
  if 0 ≤ e then (num, den <<< e.toNat) else (num <<< (-e).toNat, den)

/-- `num / den` rounded to an integer, a half going to the even neighbour. -/
def roundHalfEven (num den : Nat) : Nat :=
  let q := num / den
  let r := num % den
  if den < 2 * r || (2 * r == den && q % 2 == 1) then q + 1 else q

/-- Magnitude word of the number nearest to `num / den` for positive `num` and `den`.  The
exponent is the one that leaves 53 bits, or the least exponent there is; the sum of the
shifted exponent and the rounded significand is the word, also when rounding carries. -/
def nearestWord (num den : Nat) : Nat :=
  let spread : Int := (num.log2 : Int) - den.log2
  let (n₀, d₀) := scaleRatio num den spread
  let floorLog := if d₀ ≤ n₀ then spread else spread - 1
  let e := max (floorLog - 52) (-1074)
  let (n, d) := scaleRatio num den e
  min ((e + 1074).toNat <<< 52 + roundHalfEven n d) infinityWord

/-- The number nearest to `± num / den`; a zero denominator counts as one. -/
def ofRatio (negative : Bool) (num den : Nat) : Binary64 :=
  if num = 0 then ofParts negative 0 else ofParts negative (nearestWord num (max den 1))

def ofInt (n : Int) : Binary64 := ofRatio (n < 0) n.natAbs 1

def ofNat (n : Nat) : Binary64 := ofRatio false n 1

/-- The number nearest to `± digits * 10 ^ exponent`.  Exponents far outside the range of
the format are answered without computing the power. -/
def ofDecimal (negative : Bool) (digits : Nat) (exponent : Int) : Binary64 :=
  if digits = 0 then ofParts negative 0
  else
    let top : Int := (digits.log2 : Int) * 30103 / 100000 + exponent
    if 400 < top then infinity negative
    else if top < -400 then ofParts negative 0
    else if 0 ≤ exponent then ofRatio negative (digits * Nat.pow 10 exponent.toNat) 1
    else ofRatio negative digits (Nat.pow 10 (-exponent).toNat)

/-! ### Exact value and arithmetic -/

def toFraction (x : Binary64) : Int × Nat :=
  let n : Nat := x.significand <<< x.exponent.toNat
  (if x.negative then -n else n, 1 <<< (-x.exponent).toNat)

def neg (x : Binary64) : Binary64 := ofParts (!x.negative) x.magnitude

def abs (x : Binary64) : Binary64 := ofParts false x.magnitude

def add (x y : Binary64) : Binary64 :=
  if x.isNaN || y.isNaN then nan
  else if x.isInfinite then
    if y.isInfinite && x.negative != y.negative then nan else x
  else if y.isInfinite then y
  else
    let (a, b) := x.toFraction
    let (c, d) := y.toFraction
    let n := a * d + c * b
    if n = 0 then ofParts (x.negative && y.negative) 0
    else ofRatio (n < 0) n.natAbs (b * d)

def sub (x y : Binary64) : Binary64 := add x (neg y)

def mul (x y : Binary64) : Binary64 :=
  let sign := x.negative != y.negative
  if x.isNaN || y.isNaN then nan
  else if x.isInfinite || y.isInfinite then
    if x.isZero || y.isZero then nan else infinity sign
  else
    let (a, b) := x.toFraction
    let (c, d) := y.toFraction
    ofRatio sign (a.natAbs * c.natAbs) (b * d)

def div (x y : Binary64) : Binary64 :=
  let sign := x.negative != y.negative
  if x.isNaN || y.isNaN then nan
  else if x.isInfinite then if y.isInfinite then nan else infinity sign
  else if y.isInfinite then ofParts sign 0
  else if y.isZero then if x.isZero then nan else infinity sign
  else
    let (a, b) := x.toFraction
    let (c, d) := y.toFraction
    ofRatio sign (a.natAbs * d) (b * c.natAbs)

/-- The smaller of two numbers; a NaN gives way to the other operand. -/
def minimum (x y : Binary64) : Binary64 :=
  match x.compare? y with
  | some .gt => y
  | some _ => x
  | none => if x.isNaN then y else x

/-- Repeated squaring: `acc * x ^ n`, multiplying in the bits of `n` from the lowest. -/
def powLoop : Nat → Binary64 → Nat → Binary64 → Binary64
  | 0, acc, _, _ => acc
  | fuel + 1, acc, n, x =>
    let acc := if n % 2 == 1 then mul acc x else acc
    if n / 2 = 0 then acc else powLoop fuel acc (n / 2) (mul x x)

/-- Integer power by repeated squaring, with one rounding per multiplication. -/
def powInt (x : Binary64) (n : Int) : Binary64 :=
  let r := powLoop (n.natAbs.log2 + 1) (ofNat 1) n.natAbs x
  if n < 0 then div (ofNat 1) r else r

/-- The integer part of a finite number; `none` for NaN and the infinities. -/
def truncate? (x : Binary64) : Option Int :=
  if x.isFinite then
    let (n, d) := x.toFraction
    some (n.tdiv d)
  else none

/-- True when the number is finite and has no fractional part. -/
def isIntegral (x : Binary64) : Bool :=
  x.isFinite && x.toFraction.1 % x.toFraction.2 == 0

/-- Conversion to a natural below `limit`: fractions are dropped, values outside the range
go to its nearest end, NaN to 0. -/
def toNatClamped (x : Binary64) (limit : Nat) : Nat :=
  if x.isNaN then 0
  else if x.isInfinite then if x.negative then 0 else limit - 1
  else min ((x.truncate?.getD 0).toNat) (limit - 1)

end Binary64

end Recordkeeper
