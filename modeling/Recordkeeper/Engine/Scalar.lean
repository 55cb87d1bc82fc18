import Recordkeeper.Engine.Plan
import Recordkeeper.Pattern.Like
import Recordkeeper.Sql.Fault

/-!
Contract: operators and functions on cells.

Owns:
- comparisons, arithmetic and the connectives of three-valued logic;
- patterns in the two ways the engine knows;
- the functions of one row and of a group.

Does not own: terms.

A null makes a result null unless an operator says otherwise.
-/

set_option autoImplicit false

namespace Recordkeeper.Engine

open Sql

abbrev Result (α : Type) := Except Fault α

structure Settings where
  /-- Whether LIKE minds the case of ASCII letters. -/
  caseSensitive : Bool := false
  /-- Whether regular expressions are known. -/
  patterns : Bool := false
  deriving DecidableEq, Repr

/-! ### Logic -/

def notCell (c : Cell) : Cell :=
  match c.truth? with
  | some b => .ofBool !b
  | none => .null

def andCell (a b : Cell) : Cell :=
  match a.truth?, b.truth? with
  | some false, _ | _, some false => .ofBool false
  | some true, some true => .ofBool true
  | _, _ => .null

def orCell (a b : Cell) : Cell :=
  match a.truth?, b.truth? with
  | some true, _ | _, some true => .ofBool true
  | some false, some false => .ofBool false
  | _, _ => .null

/-! ### Comparison -/

def passes (op : Comparison) (o : Ordering) : Bool :=
  match op, o with
  | .eq, .eq | .le, .eq | .ge, .eq => true
  | .ne, .lt | .ne, .gt => true
  | .lt, .lt | .le, .lt => true
  | .gt, .gt | .ge, .gt => true
  | _, _ => false

def compareCells (op : Comparison) (affinity : Option Affinity) (a b : Cell) : Cell :=
  if a.isNull || b.isNull then .null
  else
    let (a, b) := Affinity.operands affinity a b
    .ofBool (passes op (a.order b))

/-- Equality that counts nulls as the same. -/
def sameCells (affinity : Option Affinity) (a b : Cell) : Cell :=
  let (a, b) := Affinity.operands affinity a b
  .ofBool (a.same b)

/-- Whether a cell is among others.  Without a hit a null on either side leaves it open, unless
there is nothing to be among. -/
def memberCell (affinity : Option Affinity) (c : Cell) (items : List Cell) : Cell :=
  let convert (c : Cell) : Cell :=
    match affinity with
    | some a => a.apply c
    | none => c
  if items.isEmpty then .ofBool false
  else if c.isNull then .null
  else if items.any fun item => !item.isNull && (convert c).same (convert item) then .ofBool true
  else if items.any Cell.isNull then .null
  else .ofBool false

/-! ### Arithmetic -/

/-- An operation on two numbers: exact on integers where the result fits, on reals otherwise. -/
def onNumbers (exact : Int → Int → Int) (rounded : Binary64 → Binary64 → Binary64) (a b : Cell) :
    Cell :=
  match a.toNumber, b.toNumber with
  | .null, _ | _, .null => .null
  | .integer m, .integer n =>
    match Cell.ofInt (exact m.toInt n.toInt) with
    | .integer r => .integer r
    | _ => Cell.ofReal (rounded (.ofInt m.toInt) (.ofInt n.toInt))
  | x, y => Cell.ofReal (rounded x.toReal y.toReal)

/-- Division drops the fraction of integers; by zero it gives null. -/
def divideCells (a b : Cell) : Cell :=
  match b.toNumber with
  | .integer n => if n = 0 then .null else onNumbers Int.tdiv Binary64.div a b
  | .real y => if y.isZero then .null else onNumbers Int.tdiv Binary64.div a b
  | _ => .null

/-- The remainder of the operands as integers; a real operand makes it a real. -/
def remainderCells (a b : Cell) : Cell :=
  match a.toNumber, b.toNumber with
  | .null, _ | _, .null => .null
  | x, y =>
    let n := y.toInteger
    if n = 0 then .null
    else
      let r := Cell.ofInt (x.toInteger.toInt.tmod n.toInt)
      match x, y with
      | .integer _, .integer _ => r
      | _, _ => .real r.toReal

/-- The bits of an integer, moved to the left or, by a negative distance, to the right. -/
def shiftBits (n : Int64) (distance : Int) : Int64 :=
  if distance = 0 then n
  else if 64 ≤ distance then 0
  else if 0 < distance then Int64.ofInt (n.toInt <<< distance.toNat)
  else if distance ≤ -64 then (if n < 0 then -1 else 0)
  else Int64.ofInt (n.toInt >>> (-distance).toNat)

def onBits (op : Int64 → Int64 → Int64) (a b : Cell) : Cell :=
  if a.isNull || b.isNull then .null else .integer (op a.toInteger b.toInteger)

def arithCells (op : Arithmetic) (a b : Cell) : Cell :=
  match op with
  | .add => onNumbers (· + ·) Binary64.add a b
  | .sub => onNumbers (· - ·) Binary64.sub a b
  | .mul => onNumbers (· * ·) Binary64.mul a b
  | .div => divideCells a b
  | .rem => remainderCells a b
  | .concat => if a.isNull || b.isNull then .null else .text (a.toText ++ b.toText)
  | .bitAnd => onBits (· &&& ·) a b
  | .bitOr => onBits (· ||| ·) a b
  | .shiftLeft => onBits (fun n d => shiftBits n d.toInt) a b
  | .shiftRight => onBits (fun n d => shiftBits n (-d.toInt)) a b

/-! ### Patterns -/

/-- The elements of a pattern.  An escape makes the next character literal; without a next one the
pattern matches nothing. -/
def likeElements? (escape : Option Char) : List Char → Option (List Like.Element)
  | [] => some []
  | c :: rest =>
    if escape = some c then
      match rest with
      | [] => none
      | d :: more => (likeElements? escape more).map (.exactly d :: ·)
    else
      (likeElements? escape rest).map
        ((if c = '%' then .anyRun else if c = '_' then .anyChar else .exactly c) :: ·)

/-- The characters a pattern is matched on: a text ends at its first zero. -/
def likeChars (settings : Settings) (text : String) : List Char :=
  let cs := text.toList.takeWhile fun c => c.toNat != 0
  if settings.caseSensitive then cs else cs.map Char.toLower

def likeTexts (settings : Settings) (escape : Option Char) (text pattern : String) : Bool :=
  match likeElements? escape (likeChars settings pattern) with
  | some es => Like.matchElements es (likeChars settings text)
  | none => false

def likeCells (settings : Settings) (text pattern : Cell) (escape : Option Cell) : Result Cell :=
  let answer (escape : Option Char) : Cell :=
    if text.isNull || pattern.isNull then .null
    else .ofBool (likeTexts settings escape text.toText pattern.toText)
  match escape with
  | none => .ok (answer none)
  | some c =>
    if c.isNull then .ok .null
    else
      match c.toText.toList with
      | [e] => .ok (answer (some e))
      | _ => .error .escapeLength

def searched? : Cell → Option String
  | .null => none
  | .integer n => some (toString n.toInt)
  | .real x => some x.toText
  | .text s => some s
  | .blob b => some (Text.Utf8.decodeLossy b)

/-- Whether a regular expression matches somewhere.  The expression is read first, so that a wrong
one fails on every value. -/
def regexpCells (pattern value : Cell) : Result Cell :=
  match pattern with
  | .text s =>
    match Regex.parse? s with
    | none => .error .wrongPattern
    | some r =>
      match searched? value with
      | some s => .ok (.ofBool (r.isMatch s))
      | none => .ok .null
  | _ => .error .patternType

/-! ### Functions -/

def absoluteCell (c : Cell) : Result Cell :=
  match c with
  | .null => .ok .null
  | .integer n =>
    if n = Int64.minValue then .error .integerOverflow
    else .ok (Cell.ofInt (n.toInt.natAbs))
  | c => .ok (.real c.toReal.abs)

/-- The extreme of some cells in an order; the first of several. -/
def extreme (better : Ordering) : List Cell → Cell
  | [] => .null
  | c :: rest => rest.foldl (fun best c => if c.order best == better then c else best) c

def lengthCell : Cell → Cell
  | .null => .null
  | .blob b => .integer (Int64.ofNat b.length)
  | c => .integer (Int64.ofNat (c.toText.toList.takeWhile fun c => c.toNat != 0).length)

def typeNameOf : Cell → String
  | .null => "null"
  | .integer _ => "integer"
  | .real _ => "real"
  | .text _ => "text"
  | .blob _ => "blob"

def onText (f : String → String) (c : Cell) : Cell :=
  if c.isNull then .null else .text (f c.toText)

def applyFunction (f : Function) (args : List Cell) : Result Cell :=
  match f, args with
  | .absolute, [c] => absoluteCell c
  | .coalesce, args => .ok ((args.find? fun c => !c.isNull).getD .null)
  | .nullIf, [a, b] => .ok (if !b.isNull && a.same b then .null else a)
  | .length, [c] => .ok (lengthCell c)
  | .lower, [c] => .ok (onText String.toLower c)
  | .upper, [c] => .ok (onText String.toUpper c)
  | .typeName, [c] => .ok (.text (typeNameOf c))
  | .least, args => .ok (if args.any Cell.isNull then .null else extreme .lt args)
  | .greatest, args => .ok (if args.any Cell.isNull then .null else extreme .gt args)
  | .regexp, [pattern, value] => regexpCells pattern value
  | _, _ => .ok .null

/-- The cells without repetitions, first ones kept. -/
def distinctCells (cells : List Cell) : List Cell :=
  (cells.foldl (fun (kept : List Cell) c => if kept.any c.same then kept else c :: kept) []).reverse

/-- The sum of numbers, an integer as long as all of them are. -/
def sumCells (cells : List Cell) : Result Cell :=
  let numbers := cells.map Cell.toNumber
  let whole (c : Cell) : Option Int :=
    match c with
    | .integer n => some n.toInt
    | _ => none
  match numbers.mapM whole with
  | some ns =>
    match Cell.ofInt (ns.foldl (· + ·) 0) with
    | .integer n => .ok (.integer n)
    | _ => .error .integerOverflow
  | none => .ok (Cell.ofReal (numbers.foldl (fun x c => x.add c.toReal) .zero))

def totalReal (cells : List Cell) : Binary64 :=
  cells.foldl (fun x c => x.add c.toReal) .zero

/-- An aggregate of the cells of a group; nulls do not take part. -/
def applyAggregate (f : Aggregate) (distinct : Bool) (cells : List Cell) : Result Cell :=
  let cells := cells.filter fun c => !c.isNull
  let cells := if distinct then distinctCells cells else cells
  match f with
  | .count => .ok (.integer (Int64.ofNat cells.length))
  | .sum => if cells.isEmpty then .ok .null else sumCells cells
  | .total => .ok (Cell.ofReal (totalReal cells))
  | .average =>
    if cells.isEmpty then .ok .null
    else .ok (Cell.ofReal ((totalReal cells).div (.ofNat cells.length)))
  | .least => .ok (extreme .lt cells)
  | .greatest => .ok (extreme .gt cells)

end Recordkeeper.Engine
