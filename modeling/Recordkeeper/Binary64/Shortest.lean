import Recordkeeper.Binary64.Basic

/-!
Contract: the fewest decimal digits that read back to a given finite number, and a fixed
number of significant digits.

Owns:
- `Decimal`, a natural times a power of ten;
- the rounding interval of a number and the search over decimal grids;
- rounding to a given count of significant digits.

Does not own: where the point, the zeros and the exponent mark are written, which is
`Binary64.Text`.
-/

set_option autoImplicit false

namespace Recordkeeper

structure Decimal where
  digits : Nat
  exponent : Int
  deriving DecidableEq, Repr

namespace Decimal

/-- Drops trailing zeros of the digits; the count of zeros never exceeds the length of the
number in bits. -/
def trimZeros (d : Decimal) : Decimal :=
  go d.digits.log2 d.digits d.exponent
where
  go : Nat → Nat → Int → Decimal
    | 0, n, e => ⟨n, e⟩
    | fuel + 1, n, e =>
      if n ≠ 0 ∧ n % 10 = 0 then go fuel (n / 10) (e + 1) else ⟨n, e⟩

end Decimal

namespace Binary64

inductive TieRule where
  | upper
  | even
  deriving DecidableEq, Repr

/-- Least `p` with `significand * 2 ^ exponent < 10 ^ p`, for a positive significand. -/
def decimalTop (m : Nat) (e : Int) : Int :=
  let guess : Int := ((m.log2 : Int) + e) * 30103 / 100000 - 1
  let below (p : Int) : Bool :=
    m <<< e.toNat * Nat.pow 10 (-p).toNat < Nat.pow 10 p.toNat <<< (-e).toNat
  match [guess, guess + 1, guess + 2, guess + 3].find? below with
  | some p => p
  | none => guess + 4

/-- The decimals `d * 10 ^ k` and `(d + 1) * 10 ^ k` around the number `m * 2 ^ e`, judged
against its rounding interval.  Everything is scaled by four, so that the ends of the
interval are whole: it reaches half a unit in the last place to both sides, a quarter below
a power of two, and contains its ends exactly when the significand is even. -/
def onGrid? (tie : TieRule) (m : Nat) (e k : Int) : Option Decimal :=
  let grid := Nat.pow 10 k.toNat <<< (2 - e).toNat
  let unit := Nat.pow 10 (-k).toNat <<< (e - 2).toNat
  let value := 4 * m * unit
  let low := (4 * m - (if m = 1 <<< 52 ∧ -1074 < e then 1 else 2)) * unit
  let high := (4 * m + 2) * unit
  let inside (n : Nat) : Bool :=
    if m % 2 = 0 then low ≤ n * grid && n * grid ≤ high
    else low < n * grid && n * grid < high
  let d := value / grid
  let below := value - d * grid
  let above := (d + 1) * grid - value
  let lowerOk := d ≠ 0 && inside d
  let upperOk := inside (d + 1)
  let takeUpper :=
    upperOk &&
      (!lowerOk || above < below ||
        (above == below &&
          match tie with
          | .upper => true
          | .even => d % 2 == 1))
  if takeUpper then some ⟨d + 1, k⟩
  else if lowerOk then some ⟨d, k⟩
  else none

/-- The decimal of fewest digits that lies in the rounding interval, the nearest of those;
seventeen digits always suffice. -/
def shortest (tie : TieRule) (x : Binary64) : Decimal :=
  let m := x.significand
  let e := x.exponent
  if m = 0 then ⟨0, 0⟩
  else
    let top := decimalTop m e
    match (List.range 17).findSome? (fun (n : Nat) => onGrid? tie m e (top - 1 - n)) with
    | some d => d.trimZeros
    | none => ⟨0, 0⟩

/-- The finite number rounded to `count` significant digits, halves away from zero, trailing
zeros dropped. -/
def significant (count : Nat) (x : Binary64) : Decimal :=
  let m := x.significand
  let e := x.exponent
  if m = 0 then ⟨0, 0⟩
  else
    let k := decimalTop m e - count
    let num := m <<< e.toNat * Nat.pow 10 (-k).toNat
    let den := Nat.pow 10 k.toNat <<< (-e).toNat
    (Decimal.mk ((2 * num + den) / (2 * den)) k).trimZeros

end Binary64

end Recordkeeper
