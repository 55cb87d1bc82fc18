import Recordkeeper.Binary64.Shortest

/-!
Contract: decimal text of binary64 numbers, out and in.

Owns:
- the positional layout used for plain values;
- the layout of numbers in JSON text;
- the fifteen-digit layout of the relational engine;
- reading a number from text.

Does not own: which digits a number has, which is `Binary64.Shortest`.
-/

set_option autoImplicit false

namespace Recordkeeper

namespace Decimal

def digitText (n : Nat) : String := String.ofList (Nat.toDigits 10 n)

/-- Positional text without exponent; `minPlaces` places are always written. -/
def positional (d : Decimal) (minPlaces : Nat) : String :=
  let ds := Nat.toDigits 10 d.digits
  let places := (-d.exponent).toNat
  let padded := ds ++ List.replicate d.exponent.toNat '0'
  let wide := List.replicate (places + 1 - padded.length) '0' ++ padded
  let whole := wide.take (wide.length - places)
  let fraction := wide.drop (wide.length - places)
  let fraction := fraction ++ List.replicate (minPlaces - fraction.length) '0'
  if fraction.isEmpty then String.ofList whole
  else String.ofList whole ++ "." ++ String.ofList fraction

def leading (d : Decimal) : Int := (Nat.toDigits 10 d.digits).length + d.exponent - 1

/-- Scientific text: one digit, the rest after a point, then the exponent with its sign and
at least `expDigits` digits. -/
def scientific (d : Decimal) (minPlaces expDigits : Nat) : String :=
  let ds := Nat.toDigits 10 d.digits
  let fraction := ds.drop 1 ++ List.replicate (minPlaces - (ds.length - 1)) '0'
  let mantissa :=
    if fraction.isEmpty then String.ofList (ds.take 1)
    else String.ofList (ds.take 1) ++ "." ++ String.ofList fraction
  let exp := Nat.toDigits 10 d.leading.natAbs
  let exp := List.replicate (expDigits - exp.length) '0' ++ exp
  mantissa ++ (if d.leading < 0 then "e-" else "e+") ++ String.ofList exp

end Decimal

namespace Binary64

private def signed (x : Binary64) (text : String) : String :=
  if x.negative then "-" ++ text else text

/-- Text of a value: fewest digits, always positional, no fraction for whole numbers. -/
def toText (x : Binary64) : String :=
  if x.isNaN then "NaN"
  else if x.isInfinite then x.signed "inf"
  else x.signed ((x.shortest .upper).positional 0)

/-- Text of a finite number in JSON: fewest digits, positional with at least one place from
1e-5 up to below 1e16, otherwise scientific with a signed exponent. -/
def toJsonText (x : Binary64) : String :=
  let d := x.shortest .even
  if d.digits = 0 then x.signed "0.0"
  else if -5 ≤ d.leading ∧ d.leading < 16 then x.signed (d.positional 1)
  else x.signed (d.scientific 0 1)

/-- Text the relational engine gives a real: fifteen significant digits, at least one place,
scientific below 1e-4 and from 1e15 on. -/
def toSqlText (x : Binary64) : String :=
  if x.isNaN then ""
  else if x.isInfinite then x.signed "Inf"
  else
    let d := x.significant 15
    if d.digits = 0 then x.signed "0.0"
    else if -4 ≤ d.leading ∧ d.leading < 15 then x.signed (d.positional 1)
    else x.signed (d.scientific 1 2)

/-! ### Reading -/

/-- The leading run of decimal digits, its value appended to `acc`, its length and the rest. -/
def readDigits : List Char → Nat → Nat → Nat × Nat × List Char
  | [], acc, n => (acc, n, [])
  | c :: rest, acc, n =>
    if c.isDigit then readDigits rest (acc * 10 + (c.toNat - '0'.toNat)) (n + 1)
    else (acc, n, c :: rest)

/-- An optional exponent part: `some 0` when there is none, `none` when it is malformed. -/
def readExponent : List Char → Option (Int × List Char)
  | c :: rest =>
    if c = 'e' ∨ c = 'E' then
      let (negative, rest) :=
        match rest with
        | '-' :: r => (true, r)
        | '+' :: r => (false, r)
        | r => (false, r)
      let (value, count, rest) := readDigits rest 0 0
      if count = 0 then none else some (if negative then -(value : Int) else value, rest)
    else some (0, c :: rest)
  | [] => some (0, [])

/-- Unsigned decimal with optional fraction and exponent, at least one digit in all, to the
end of the text. -/
def readDecimal (negative : Bool) (text : List Char) : Option Binary64 :=
  let (whole, wholeCount, rest) := readDigits text 0 0
  let (digits, places, rest) :=
    match rest with
    | '.' :: r =>
      let (d, n, r) := readDigits r whole 0
      (d, n, r)
    | r => (whole, 0, r)
  if wholeCount + places = 0 then none
  else
    match readExponent rest with
    | some (e, []) => some (ofDecimal negative digits (e - places))
    | _ => none

/-- A number from text: optional sign, then a decimal, or `inf`, `infinity` or `nan` in any
case. -/
def ofText? (text : String) : Option Binary64 :=
  let (negative, rest) :=
    match text.toList with
    | '-' :: r => (true, r)
    | '+' :: r => (false, r)
    | r => (false, r)
  let word := String.ofList (rest.map Char.toLower)
  if word = "inf" ∨ word = "infinity" then some (infinity negative)
  else if word = "nan" then some (if negative then neg nan else nan)
  else readDecimal negative rest

end Binary64

end Recordkeeper
