import Recordkeeper.Text.Base64
import Recordkeeper.Text.Classes

/-!
Contract: the words of SQL.

Owns:
- tokens with their places in the text;
- the two lexical conventions in use, that of the engine and a general one;
- splitting a text into tokens, dropping blanks and comments.

Does not own: what a sequence of tokens means.
-/

set_option autoImplicit false

namespace Recordkeeper.Sql

inductive Token where
  /-- A keyword or a plain name, as written. -/
  | word (s : String)
  /-- A name in quotes. -/
  | name (s : String)
  | text (s : String)
  | blob (b : Bytes)
  | number (s : String)
  /-- A place for a value. -/
  | parameter (s : String)
  | symbol (s : String)
  /-- Text that is no token. -/
  | illegal
  deriving DecidableEq, Repr, Inhabited

structure Lexeme where
  token : Token
  chars : List Char
  /-- Number of characters before it. -/
  start : Nat
  deriving Repr, Inhabited

def Lexeme.stop (l : Lexeme) : Nat := l.start + l.chars.length

structure Lexis where
  nameStart : Char → Bool
  namePart : Char → Bool
  /-- Names may stand in square brackets. -/
  brackets : Bool
  /-- A name may not follow a number without a blank. -/
  strictNumbers : Bool
  /-- Comments may be nested. -/
  nestedComments : Bool

namespace Lexis

/-- The conventions of the engine: every character beyond ASCII may stand in a name. -/
def engine : Lexis where
  nameStart c := c.isAlpha || c == '_' || 128 ≤ c.toNat
  namePart c := c.isAlphanum || c == '_' || c == '$' || 128 ≤ c.toNat
  brackets := true
  strictNumbers := true
  nestedComments := false

def general : Lexis where
  nameStart c := Text.isLetter c || c == '_' || c == '#' || c == '@'
  namePart c := Text.isLetter c || c.isDigit || c == '_' || c == '$' || c == '#' || c == '@'
  brackets := false
  strictNumbers := false
  nestedComments := true

end Lexis

namespace Token

def isBlank (c : Char) : Bool := c = ' ' || c = '\t' || c = '\n' || c = '\r' || c.toNat = 12

/-- What follows a block comment; `depth` comments are open. -/
def afterComment (nested : Bool) : Nat → List Char → Option (List Char)
  | 0, cs => some cs
  | _ + 1, [] => none
  | depth + 1, '*' :: '/' :: rest => afterComment nested depth rest
  | depth + 1, '/' :: '*' :: rest =>
    if nested then afterComment nested (depth + 2) rest else afterComment nested (depth + 1) rest
  | depth + 1, _ :: rest => afterComment nested (depth + 1) rest

/-- The text up to a closing mark, which stands for itself when doubled, with the number of
characters taken, the mark included. -/
def quotedBody (mark : Char) : List Char → Option (List Char × Nat)
  | [] => none
  | c :: rest =>
    if c = mark then
      match rest with
      | d :: more =>
        if d = mark then (quotedBody mark more).map fun r => (mark :: r.1, r.2 + 2)
        else some ([], 1)
      | [] => some ([], 1)
    else (quotedBody mark rest).map fun r => (c :: r.1, r.2 + 1)

def bracketBody : List Char → Option (List Char × Nat)
  | [] => none
  | c :: rest => if c = ']' then some ([], 1) else (bracketBody rest).map fun r => (c :: r.1, r.2 + 1)

/-- Number of characters of an exponent at the front, if one is there. -/
def exponentLength : List Char → Nat
  | c :: rest =>
    if c = 'e' ∨ c = 'E' then
      let sign := match rest with
        | s :: _ => if s = '+' ∨ s = '-' then 1 else 0
        | [] => 0
      let digits := ((rest.drop sign).takeWhile Char.isDigit).length
      if digits = 0 then 0 else 1 + sign + digits
    else 0
  | [] => 0

def decimalLength (cs : List Char) : Nat :=
  let whole := (cs.takeWhile Char.isDigit).length
  let fraction := match cs.drop whole with
    | '.' :: rest => 1 + (rest.takeWhile Char.isDigit).length
    | _ => 0
  whole + fraction + exponentLength (cs.drop (whole + fraction))

/-- Number of characters of a number at the front, hexadecimal ones included. -/
def numberLength (cs : List Char) : Nat :=
  match cs with
  | '0' :: x :: rest =>
    let digits := (rest.takeWhile fun c => (Text.hexValue? c).isSome).length
    if (x = 'x' ∨ x = 'X') ∧ digits ≠ 0 then 2 + digits else decimalLength cs
  | _ => decimalLength cs

/-- Operators and signs of more than one character, longer ones first. -/
def longSymbols : List String :=
  ["->>", "->", "::", ":=", "=>", "||", "<=", ">=", "<>", "!=", "==", "<<", ">>"]

def symbolAt (cs : List Char) : String :=
  match longSymbols.find? fun s => s.toList.isPrefixOf cs with
  | some s => s
  | none => String.ofList (cs.take 1)

def parameterMarks : List Char := ['?', ':', '@', '$']

/-- The token at the front of a text without blanks in front, with its length. -/
def first (lexis : Lexis) (cs : List Char) : Token × Nat :=
  let illegal := (Token.illegal, cs.length)
  let quoted (mark : Char) (make : String → Token) (rest : List Char) : Token × Nat :=
    match quotedBody mark rest with
    | some (body, n) => (make (String.ofList body), n + 1)
    | none => illegal
  match cs with
  | [] => illegal
  | c :: rest =>
    if c = '\'' then quoted c .text rest
    else if c = '"' ∨ c.toNat = 0x60 then quoted c .name rest
    else if c = '[' ∧ lexis.brackets then
      match bracketBody rest with
      | some (body, n) => (.name (String.ofList body), n + 1)
      | none => illegal
    else if (c = 'x' ∨ c = 'X') ∧ rest.head? = some '\'' then
      match quotedBody '\'' rest.tail with
      | some (body, n) =>
        match Text.unhex? (String.ofList body) with
        | some b => (.blob b, n + 2)
        | none => (.illegal, n + 2)
      | none => illegal
    else if lexis.nameStart c then
      let n := 1 + (rest.takeWhile lexis.namePart).length
      (.word (String.ofList (cs.take n)), n)
    else if c.isDigit ∨ (c = '.' ∧ rest.head?.any Char.isDigit) then
      let n := numberLength cs
      let more := ((cs.drop n).takeWhile lexis.namePart).length
      if lexis.strictNumbers ∧ more ≠ 0 then (.illegal, n + more)
      else (.number (String.ofList (cs.take n)), n)
    else if c = '?' then
      let n := 1 + (rest.takeWhile Char.isDigit).length
      (.parameter (String.ofList (cs.take n)), n)
    else if parameterMarks.contains c ∧ rest.head?.any lexis.namePart then
      let n := 1 + (rest.takeWhile lexis.namePart).length
      (.parameter (String.ofList (cs.take n)), n)
    else
      let s := symbolAt cs
      (.symbol s, s.length)

inductive Front where
  | finished
  /-- A number of characters to pass over. -/
  | skip (n : Nat)
  | lexeme (token : Token) (n : Nat)

def front (lexis : Lexis) (cs : List Char) : Front :=
  match cs with
  | [] => .finished
  | '-' :: '-' :: _ => .skip (cs.takeWhile (· ≠ '\n')).length
  | '/' :: '*' :: rest =>
    match afterComment lexis.nestedComments 1 rest with
    | some after => .skip (cs.length - after.length)
    | none => if lexis.nestedComments then .lexeme .illegal cs.length else .skip cs.length
  | c :: _ =>
    if isBlank c || (lexis.nestedComments && Text.isBlank c) then .skip 1
    else
      let (token, n) := first lexis cs
      .lexeme token n

/-- The tokens of a text of which `before` characters have been read.  Every step takes at least
one character, so the length of the text is fuel enough. -/
def splitFrom (lexis : Lexis) : Nat → Nat → List Char → List Lexeme
  | 0, _, _ => []
  | fuel + 1, before, cs =>
    match front lexis cs with
    | .finished => []
    | .skip n => splitFrom lexis fuel (before + max n 1) (cs.drop (max n 1))
    | .lexeme token n =>
      let n := max n 1
      ⟨token, cs.take n, before⟩ :: splitFrom lexis fuel (before + n) (cs.drop n)

def split (lexis : Lexis) (text : List Char) : List Lexeme :=
  splitFrom lexis (text.length + 1) 0 text

def isKeyword (t : Token) (keyword : String) : Bool :=
  match t with
  | .word s => s.toUpper == keyword
  | _ => false

end Token

end Recordkeeper.Sql
