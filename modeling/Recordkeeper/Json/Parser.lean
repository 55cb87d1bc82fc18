import Recordkeeper.Json.Basic
import Recordkeeper.Binary64.Text
import Recordkeeper.Text.Base64

/-!
Contract: reading JSON text.

Owns: the grammar, the limit on nesting, escapes and surrogate pairs, and which numbers are
whole.

Does not own: the meaning of any document.

A number with a fraction or an exponent is scaled from its significand by powers of ten with
one rounding each, and not read as the nearest number; a significand keeps at most 64 bits.
-/

set_option autoImplicit false

namespace Recordkeeper.Json.Parser

/-- Input that is no JSON text, or a number beyond the range of binary64. -/
inductive Failure where
  | malformed
  deriving DecidableEq, Repr

def depthLimit : Nat := 127

def skipBlanks (cs : List Char) : List Char :=
  cs.dropWhile fun c => c = ' ' || c = '\n' || c = '\t' || c = '\r'

/-! ### Numbers -/

def significandLimit : Nat := 0xFFFFFFFFFFFFFFFF

/-- Scales a significand by powers of ten.  Exponents within 308 take one step; smaller ones
are first reduced in steps of 308, larger ones are out of range. -/
def scale : Nat → Binary64 → Int → Except Failure Binary64
  | 0, x, _ => .ok x
  | fuel + 1, x, e =>
    if e.natAbs ≤ 308 then
      let power := Binary64.ofRatio false (Nat.pow 10 e.natAbs) 1
      if 0 ≤ e then
        let y := x.mul power
        if y.isInfinite then .error .malformed else .ok y
      else .ok (x.div power)
    else if x.isZero then .ok x
    else if 0 ≤ e then .error .malformed
    else scale fuel (x.div (Binary64.ofRatio false (Nat.pow 10 308) 1)) (e + 308)

/-- The number `± significand * 10 ^ exponent`.  Three steps of 308 take every significand to
zero, which bounds the scaling. -/
def scaled (negative : Bool) (significand : Nat) (exponent : Int) : Except Failure Number := do
  let x ← scale 8 (Binary64.ofNat significand) exponent
  return .float (if negative then x.neg else x)

/-- Reads digits into a significand for as long as it stays within its limit; later digits
are skipped and only counted.  Answers the significand, the number of digits taken, the
number of digits skipped, and the rest. -/
def takeDigits : List Char → Nat → Nat → Nat → Nat × Nat × Nat × List Char
  | [], acc, taken, skipped => (acc, taken, skipped, [])
  | c :: rest, acc, taken, skipped =>
    if c.isDigit then
      let next := acc * 10 + (c.toNat - '0'.toNat)
      if skipped = 0 ∧ next ≤ significandLimit then takeDigits rest next (taken + 1) 0
      else takeDigits rest acc taken (skipped + 1)
    else (acc, taken, skipped, c :: rest)

/-- The exponent part after its mark.  An exponent beyond 31 bits makes a number zero or out
of range by its sign alone. -/
def exponentPart (negative : Bool) (significand : Nat) (start : Int) (cs : List Char) :
    Except Failure (Number × List Char) :=
  let (down, cs) :=
    match cs with
    | '-' :: r => (true, r)
    | '+' :: r => (false, r)
    | r => (false, r)
  let (value, count, rest) := Binary64.readDigits cs 0 0
  if count = 0 then .error .malformed
  else if 1 <<< 31 ≤ value then
    if significand ≠ 0 ∧ !down then .error .malformed
    else .ok (.float (Binary64.ofParts negative 0), rest)
  else do
    let number ← scaled negative significand (if down then start - value else start + value)
    return (number, rest)

def fractionPart (negative : Bool) (significand : Nat) (start : Int) (cs : List Char) :
    Except Failure (Number × List Char) :=
  let (value, taken, skipped, rest) := takeDigits cs significand 0 0
  if taken + skipped = 0 then .error .malformed
  else
    let exponent := start - taken
    match rest with
    | 'e' :: r | 'E' :: r => exponentPart negative value exponent r
    | r => do
      let number ← scaled negative value exponent
      return (number, r)

/-- A number after its optional minus sign.  Without fraction and exponent it is whole if 64
bits hold it, and negative zero is not. -/
def number (negative : Bool) (cs : List Char) : Except Failure (Number × List Char) :=
  let leadingZero := cs.head? == some '0'
  let (value, taken, skipped, rest) := takeDigits cs 0 0 0
  if taken = 0 then .error .malformed
  else if leadingZero ∧ 1 < taken + skipped then .error .malformed
  else
    match rest with
    | '.' :: r => fractionPart negative value skipped r
    | 'e' :: r | 'E' :: r => exponentPart negative value skipped r
    | r =>
      if skipped ≠ 0 then do
        let number ← scaled negative value skipped
        return (number, r)
      else if !negative then .ok (.int value, r)
      else if value = 0 ∨ 1 <<< 63 < value then
        .ok (.float (Binary64.ofNat value).neg, r)
      else .ok (.int (-(value : Int)), r)

/-! ### Strings -/

def hex4? : List Char → Option (Nat × List Char)
  | a :: b :: c :: d :: rest => do
    let a ← Text.hexValue? a
    let b ← Text.hexValue? b
    let c ← Text.hexValue? c
    let d ← Text.hexValue? d
    return (((a * 16 + b) * 16 + c) * 16 + d, rest)
  | _ => none

def shortEscape? (c : Char) : Option Char :=
  match c with
  | '"' => some '"'
  | '\\' => some '\\'
  | '/' => some '/'
  | 'b' => some (Char.ofNat 8)
  | 'f' => some (Char.ofNat 12)
  | 'n' => some '\n'
  | 'r' => some '\r'
  | 't' => some '\t'
  | _ => none

/-- A code point escape after `\u`: a leading surrogate needs its trailing one. -/
def codePoint? (cs : List Char) : Option (Char × List Char) := do
  let (high, rest) ← hex4? cs
  if 0xDC00 ≤ high ∧ high ≤ 0xDFFF then none
  else if 0xD800 ≤ high ∧ high ≤ 0xDBFF then
    match rest with
    | '\\' :: 'u' :: r => do
      let (low, r) ← hex4? r
      if 0xDC00 ≤ low ∧ low ≤ 0xDFFF then
        return (Char.ofNat (0x10000 + (high - 0xD800) * 1024 + (low - 0xDC00)), r)
      else none
    | _ => none
  else return (Char.ofNat high, rest)

/-- The rest of a string after its opening quote; `acc` holds the characters read so far in
reverse.  Every step takes a character, so the length of the text is fuel enough. -/
def string : Nat → List Char → List Char → Except Failure (String × List Char)
  | 0, _, _ => .error .malformed
  | _ + 1, [], _ => .error .malformed
  | fuel + 1, c :: rest, acc =>
    if c = '"' then .ok (String.ofList acc.reverse, rest)
    else if c = '\\' then
      match rest with
      | 'u' :: r =>
        match codePoint? r with
        | some (c, r) => string fuel r (c :: acc)
        | none => .error .malformed
      | e :: r =>
        match shortEscape? e with
        | some c => string fuel r (c :: acc)
        | none => .error .malformed
      | [] => .error .malformed
    else if c.toNat < 32 then .error .malformed
    else string fuel rest (c :: acc)

def quotedText (cs : List Char) : Except Failure (String × List Char) :=
  match cs with
  | '"' :: rest => string cs.length rest []
  | _ => .error .malformed

/-! ### Documents -/

def word? (w : List Char) (cs : List Char) : Option (List Char) :=
  if w.isPrefixOf cs then some (cs.drop w.length) else none

mutual

/-- A document at the front of the text; `depth` more levels may be opened. -/
def value (fuel depth : Nat) (cs : List Char) : Except Failure (Json × List Char) :=
  match fuel with
  | 0 => .error .malformed
  | fuel + 1 =>
    match skipBlanks cs with
    | [] => .error .malformed
    | c :: rest =>
      if c = '"' then do
        let (s, rest) ← quotedText (c :: rest)
        return (.text s, rest)
      else if c = '[' then
        match depth with
        | 0 => .error .malformed
        | depth + 1 =>
          match skipBlanks rest with
          | ']' :: r => .ok (.array [], r)
          | r => do
            let (items, r) ← items fuel depth r
            return (.array items, r)
      else if c = Char.ofNat 0x7B then
        match depth with
        | 0 => .error .malformed
        | depth + 1 =>
          match skipBlanks rest with
          | [] => .error .malformed
          | d :: r =>
            if d = Char.ofNat 0x7D then .ok (.object [], r)
            else do
              let (fields, r) ← fields fuel depth [] (d :: r)
              return (.object fields, r)
      else if c = '-' then do
        let (n, r) ← number true rest
        return (.number n, r)
      else if c.isDigit then do
        let (n, r) ← number false (c :: rest)
        return (.number n, r)
      else
        match word? ['n', 'u', 'l', 'l'] (c :: rest) with
        | some r => .ok (.null, r)
        | none =>
          match word? ['t', 'r', 'u', 'e'] (c :: rest) with
          | some r => .ok (.bool true, r)
          | none =>
            match word? ['f', 'a', 'l', 's', 'e'] (c :: rest) with
            | some r => .ok (.bool false, r)
            | none => .error .malformed

/-- The items of a nonempty array up to its closing bracket. -/
def items (fuel depth : Nat) (cs : List Char) : Except Failure (List Json × List Char) :=
  match fuel with
  | 0 => .error .malformed
  | fuel + 1 => do
    let (x, rest) ← value fuel depth cs
    match skipBlanks rest with
    | ',' :: r => do
      let (xs, r) ← items fuel depth r
      return (x :: xs, r)
    | ']' :: r => return ([x], r)
    | _ => .error .malformed

/-- The fields of a nonempty object up to its closing brace, added to those read before; a
repeated name keeps its first place and its last value. -/
def fields (fuel depth : Nat) (acc : Fields) (cs : List Char) : Except Failure (Fields × List Char) :=
  match fuel with
  | 0 => .error .malformed
  | fuel + 1 => do
    let (name, rest) ← quotedText (skipBlanks cs)
    match skipBlanks rest with
    | ':' :: r => do
      let (v, r) ← value fuel depth r
      let acc := acc.insert name v
      match skipBlanks r with
      | [] => .error .malformed
      | d :: r =>
        if d = ',' then fields fuel depth acc r
        else if d = Char.ofNat 0x7D then return (acc, r)
        else .error .malformed
    | _ => .error .malformed

end

/-- A text that is one document nested at most `depth` deep, with blanks around it.  No step
is taken without a character, and no character starts more than two steps. -/
def document (depth : Nat) (text : List Char) : Except Failure Json := do
  let (doc, rest) ← value (2 * text.length + 2) depth text
  if (skipBlanks rest).isEmpty then return doc else .error .malformed

end Recordkeeper.Json.Parser

namespace Recordkeeper

def Json.parse (text : String) : Except Json.Parser.Failure Json :=
  Json.Parser.document Json.Parser.depthLimit text.toList

end Recordkeeper
