import Recordkeeper.Value

/-!
Contract: the values a statement computes with.

Owns:
- cells, their total order and their texts;
- numbers at the front of a text;
- the affinities of columns and what they make of a cell.

Does not own: which affinity an expression has.

The order puts nulls first, then numbers by size, then texts, then blobs.  An integer and a real
are compared exactly.
-/

set_option autoImplicit false

namespace Recordkeeper.Sql

inductive Cell where
  | null
  | integer (n : Int64)
  | real (x : Binary64)
  | text (s : String)
  | blob (b : Bytes)
  deriving DecidableEq, Repr, Inhabited

inductive Affinity where
  | blob
  | text
  | numeric
  | integer
  | real
  deriving DecidableEq, Repr

namespace Cell

def isNull : Cell → Bool
  | .null => true
  | _ => false

def ofBool (b : Bool) : Cell := .integer (if b then 1 else 0)

/-- The cell of a real; there is none that is no number. -/
def ofReal (x : Binary64) : Cell := if x.isNaN then .null else .real x

def ofInt (n : Int) : Cell :=
  if Int64.minValue.toInt ≤ n ∧ n ≤ Int64.maxValue.toInt then .integer (Int64.ofInt n)
  else .real (.ofInt n)

/-! ### Order -/

def compareIntReal (n : Int) (x : Binary64) : Ordering :=
  if x.isInfinite then (if x.negative then .gt else .lt)
  else
    let (num, den) := x.toFraction
    compare (n * den) num

def rank : Cell → Nat
  | .null => 0
  | .integer _ | .real _ => 1
  | .text _ => 2
  | .blob _ => 3

def order (a b : Cell) : Ordering :=
  match a, b with
  | .integer m, .integer n => compare m.toInt n.toInt
  | .integer m, .real y => compareIntReal m.toInt y
  | .real x, .integer n => (compareIntReal n.toInt x).swap
  | .real x, .real y => compare x.rank y.rank
  | .text s, .text t => compare s t
  | .blob x, .blob y => Value.compareBytes x y
  | a, b => compare a.rank b.rank

/-- The same cell for grouping and unique columns; nulls are the same. -/
def same (a b : Cell) : Bool := a.order b == .eq

def sameRow : List Cell → List Cell → Bool
  | [], [] => true
  | a :: as, b :: bs => a.same b && sameRow as bs
  | _, _ => false

def orderRow : List Cell → List Cell → Ordering
  | [], [] => .eq
  | [], _ :: _ => .lt
  | _ :: _, [] => .gt
  | a :: as, b :: bs => (a.order b).then (orderRow as bs)

/-! ### Numbers in texts -/

/-- The number at the front of a text, with whether nothing but blanks follows it. -/
structure Front where
  value : Cell
  complete : Bool

def isBlank (c : Char) : Bool :=
  c = ' ' || c = '\t' || c = '\n' || c = '\r' || c.toNat = 11 || c.toNat = 12

/-- The exponent at the front, none where there is no digit in it. -/
def exponentFront : List Char → Option (Int × List Char)
  | c :: rest =>
    if c = 'e' ∨ c = 'E' then
      let (negative, rest) := match rest with
        | '-' :: r => (true, r)
        | '+' :: r => (false, r)
        | r => (false, r)
      let (value, count, rest) := Binary64.readDigits rest 0 0
      if count = 0 then none else some (if negative then -(value : Int) else value, rest)
    else none
  | [] => none

/-- The number at the front of a text.  Digits alone are an integer where they fit; a point or an
exponent makes a real.  A text without a number starts with zero. -/
def numberFront (text : String) : Front :=
  let (negative, cs) := match text.toList.dropWhile isBlank with
    | '-' :: r => (true, r)
    | '+' :: r => (false, r)
    | r => (false, r)
  let (whole, count, rest) := Binary64.readDigits cs 0 0
  let (digits, places, point, rest) := match rest with
    | '.' :: r =>
      let (d, n, r) := Binary64.readDigits r whole 0
      (d, n, true, r)
    | r => (whole, 0, false, r)
  if count + places = 0 then ⟨.integer 0, false⟩
  else
    match exponentFront rest with
    | some (e, rest) => ⟨.real (.ofDecimal negative digits (e - places)), rest.all isBlank⟩
    | none =>
      let value :=
        if point then .real (.ofDecimal negative digits (-(places : Int)))
        else ofInt (if negative then -(whole : Int) else whole)
      ⟨value, rest.all isBlank⟩

/-! ### Other readings of a cell -/

/-- The text of a cell; bytes are read as text. -/
def toText : Cell → String
  | .null => ""
  | .integer n => toString n.toInt
  | .real x => x.toSqlText
  | .text s => s
  | .blob b => Text.Utf8.decodeLossy b

def toNumber : Cell → Cell
  | .text s => (numberFront s).value
  | .blob b => (numberFront (Text.Utf8.decodeLossy b)).value
  | c => c

/-- A real as the nearest integer towards zero that there is. -/
def truncated (x : Binary64) : Int64 :=
  match x.truncate? with
  | some n => Int64.ofInt (max Int64.minValue.toInt (min Int64.maxValue.toInt n))
  | none => if x.negative then Int64.minValue else Int64.maxValue

def toInteger (c : Cell) : Int64 :=
  match c.toNumber with
  | .integer n => n
  | .real x => truncated x
  | _ => 0

def toReal (c : Cell) : Binary64 :=
  match c.toNumber with
  | .integer n => .ofInt n.toInt
  | .real x => x
  | _ => .zero

/-- Whether a cell counts as true; null is unknown. -/
def truth? (c : Cell) : Option Bool :=
  match c.toNumber with
  | .null => none
  | .integer n => some (n != 0)
  | .real x => some (!x.isZero)
  | _ => some false

end Cell

namespace Affinity

def contains (part : List Char) : List Char → Bool
  | [] => part.isEmpty
  | c :: rest => part.isPrefixOf (c :: rest) || contains part rest

def ofType (type : String) : Affinity :=
  let words := type.toUpper.toList
  let mentions (s : String) : Bool := contains s.toList words
  if mentions "INT" then .integer
  else if mentions "CHAR" || mentions "CLOB" || mentions "TEXT" then .text
  else if mentions "BLOB" || words.isEmpty then .blob
  else if mentions "REAL" || mentions "FLOA" || mentions "DOUB" then .real
  else .numeric

def isNumeric : Affinity → Bool
  | .numeric | .integer | .real => true
  | .blob | .text => false

/-- A real without fraction as an integer, but for the ends of the range. -/
def whole (x : Binary64) : Cell :=
  if x.isIntegral then
    let n := x.truncate?.getD 0
    if Int64.minValue.toInt < n ∧ n < Int64.maxValue.toInt then .integer (Int64.ofInt n)
    else .real x
  else .real x

/-- A cell as a number where it is one or is the text of one. -/
def readNumber (c : Cell) : Cell :=
  match c with
  | .real x => whole x
  | .text s =>
    let front := Cell.numberFront s
    if front.complete then
      match front.value with
      | .real x => whole x
      | v => v
    else c
  | c => c

def apply (a : Affinity) (c : Cell) : Cell :=
  match a with
  | .blob => c
  | .text =>
    match c with
    | .integer _ | .real _ => .text c.toText
    | c => c
  | .numeric | .integer => readNumber c
  | .real =>
    match readNumber c with
    | .integer n => .real (.ofInt n.toInt)
    | c => c

/-- A cell converted to a type, whatever it was. -/
def cast (a : Affinity) (c : Cell) : Cell :=
  if c.isNull then .null
  else
    match a with
    | .blob =>
      match c with
      | .blob b => .blob b
      | c => .blob (Text.Utf8.encode c.toText)
    | .text => .text c.toText
    | .integer => .integer c.toInteger
    | .real => .real c.toReal
    | .numeric =>
      match c with
      | .text _ | .blob _ => readNumber c.toNumber
      | c => c

/-- The affinity a comparison brings to its operands, from theirs. -/
def ofComparison (left right : Option Affinity) : Option Affinity :=
  match left, right with
  | some a, some b => some (if a.isNumeric || b.isNumeric then .numeric else .blob)
  | some a, none | none, some a => some a
  | none, none => none

/-- The operands of a comparison.  Numbers stay numbers unless the other operand is a text, and
texts become numbers only where they are one. -/
def operands (affinity : Option Affinity) (a b : Cell) : Cell × Cell :=
  let isText : Cell → Bool
    | .text _ => true
    | _ => false
  match affinity with
  | some .text => if isText a || isText b then (apply .text a, apply .text b) else (a, b)
  | some .blob | none => (a, b)
  | some _ =>
    let read (c : Cell) : Cell := if isText c then readNumber c else c
    (read a, read b)

end Affinity

end Recordkeeper.Sql
