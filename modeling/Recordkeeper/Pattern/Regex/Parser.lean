import Recordkeeper.Pattern.Regex.Basic
import Recordkeeper.Pattern.Regex.CharSet
import Recordkeeper.Text.Base64

/-!
Contract: the written form of regular expressions.

Owns:
- flags and their scope, groups, alternation and repetition;
- escapes and character classes with nesting, intersection, difference and symmetric
  difference;
- the limits on nesting and on the size of an expression.

Does not own: matching, which is `Pattern.Regex.Basic`.

There is no look-around and there are no back-references: an expression that uses them is
malformed.
-/

set_option autoImplicit false

namespace Recordkeeper.Regex.Parser

structure Flags where
  ignoreCase : Bool := false
  multiLine : Bool := false
  dotAll : Bool := false
  ignoreBlanks : Bool := false
  unicode : Bool := true
  deriving DecidableEq, Repr

/-- Deepest nesting of groups and classes. -/
def nestLimit : Nat := 250

/-- Largest number of steps an expression may unfold to. -/
def sizeLimit : Nat := 436906

/-- Characters with a meaning of their own, which a backslash always makes literal. -/
def metaCharacters : List Char :=
  ['\\', '.', '+', '*', '?', '(', ')', '|', '[', ']', Char.ofNat 0x7B, Char.ofNat 0x7D, '^', '$',
   '#', '&', '-', '~']

def escape (text : List Char) : List Char :=
  text.flatMap fun c => if metaCharacters.contains c then ['\\', c] else [c]

def skip (flags : Flags) : List Char → List Char
  | [] => []
  | c :: rest =>
    if !flags.ignoreBlanks then c :: rest
    else if Text.isBlank c then skip flags rest
    else if c = '#' then skipComment flags rest
    else c :: rest
where
  skipComment (flags : Flags) : List Char → List Char
    | [] => []
    | c :: rest => if c = '\n' then skip flags rest else skipComment flags rest

/-! ### Escapes -/

inductive Atom where
  | char (c : Nat)
  | set (s : Text.Ranges)
  | look (l : Look)

/-- Reads hexadecimal digits of a code point: braces hold any number, otherwise the count is
fixed. -/
def codePoint? (count : Nat) (cs : List Char) : Option (Nat × List Char) := do
  let value (digits : List Char) : Option Nat :=
    digits.foldlM (fun acc c => (Text.hexValue? c).map (acc * 16 + ·)) 0
  let check (n : Nat) : Option Nat :=
    if n ≤ 0xD7FF ∨ (0xE000 ≤ n ∧ n ≤ 0x10FFFF) then some n else none
  match cs with
  | [] => none
  | c :: rest =>
    if c = Char.ofNat 0x7B then
      let digits := rest.takeWhile (· != Char.ofNat 0x7D)
      match rest.drop digits.length with
      | [] => none
      | _ :: r => do
        if digits.isEmpty then none
        else
          let n ← value digits
          let n ← check n
          return (n, r)
    else if (c :: rest).length < count then none
    else do
      let n ← value ((c :: rest).take count)
      let n ← check n
      return (n, (c :: rest).drop count)

def digitSet (flags : Flags) : Text.Ranges :=
  if flags.unicode then Text.digitRanges else [(0x30, 0x39)]

def blankSet (flags : Flags) : Text.Ranges :=
  if flags.unicode then Text.blankRanges else [(0x09, 0x0D), (0x20, 0x20)]

def wordSet (flags : Flags) : Text.Ranges :=
  if flags.unicode then Text.Ranges.word
  else [(0x30, 0x39), (0x41, 0x5A), (0x5F, 0x5F), (0x61, 0x7A)]

/-- Named properties: letters, decimal digits, separators of words and their complements. -/
def property? (name : String) : Option Text.Ranges :=
  if name ∈ ["L", "Letter", "Alphabetic", "alphabetic"] then
    some (Text.Ranges.diff Text.Ranges.word ([(0x30, 0x39), (0x5F, 0x5F)] ++ Text.digitRanges))
  else if name ∈ ["N", "Nd", "Number", "Decimal_Number", "digit"] then some Text.digitRanges
  else if name ∈ ["White_Space", "space"] then some Text.blankRanges
  else if name ∈ ["Any"] then some Text.Ranges.everything
  else if name ∈ ["ASCII"] then some [(0, 0x7F)]
  else none

def escapeAtom? (flags : Flags) (cs : List Char) : Option (Atom × List Char) :=
  match cs with
  | [] => none
  | c :: rest =>
    let char (n : Nat) : Option (Atom × List Char) := some (.char n, rest)
    if c.isDigit then none
    else if c = 'x' then (codePoint? 2 rest).map fun r => (.char r.1, r.2)
    else if c = 'u' then (codePoint? 4 rest).map fun r => (.char r.1, r.2)
    else if c = 'U' then (codePoint? 8 rest).map fun r => (.char r.1, r.2)
    else if c = 'd' then some (.set (digitSet flags), rest)
    else if c = 'D' then some (.set (digitSet flags).complement, rest)
    else if c = 's' then some (.set (blankSet flags), rest)
    else if c = 'S' then some (.set (blankSet flags).complement, rest)
    else if c = 'w' then some (.set (wordSet flags), rest)
    else if c = 'W' then some (.set (wordSet flags).complement, rest)
    else if c = 'p' ∨ c = 'P' then do
      let (name, r) ←
        match rest with
        | [] => none
        | d :: r =>
          if d = Char.ofNat 0x7B then
            let name := r.takeWhile (· != Char.ofNat 0x7D)
            match r.drop name.length with
            | [] => none
            | _ :: r => some (name, r)
          else some ([d], r)
      let (negated, name) :=
        match name with
        | '^' :: n => (true, n)
        | n => (false, n)
      let set ← property? (String.ofList name)
      return (.set (if negated != (c = 'P') then set.complement else set), r)
    else if metaCharacters.contains c then char c.toNat
    else if c = 'a' then char 7
    else if c = 'f' then char 12
    else if c = 't' then char 9
    else if c = 'n' then char 10
    else if c = 'r' then char 13
    else if c = 'v' then char 11
    else if c = 'A' then some (.look .textStart, rest)
    else if c = 'z' then some (.look .textEnd, rest)
    else if c = 'b' then some (.look .wordEdge, rest)
    else if c = 'B' then some (.look .notWordEdge, rest)
    else if c = '<' then some (.look .wordStart, rest)
    else if c = '>' then some (.look .wordEnd, rest)
    else if c.toNat < 0x80 ∧ !c.isAlphanum then char c.toNat
    else none

/-! ### Character classes -/

def asciiClass? (name : String) : Option Text.Ranges :=
  match name with
  | "alnum" => some [(0x30, 0x39), (0x41, 0x5A), (0x61, 0x7A)]
  | "alpha" => some [(0x41, 0x5A), (0x61, 0x7A)]
  | "ascii" => some [(0, 0x7F)]
  | "blank" => some [(0x09, 0x09), (0x20, 0x20)]
  | "cntrl" => some [(0, 0x1F), (0x7F, 0x7F)]
  | "digit" => some [(0x30, 0x39)]
  | "graph" => some [(0x21, 0x7E)]
  | "lower" => some [(0x61, 0x7A)]
  | "print" => some [(0x20, 0x7E)]
  | "punct" => some [(0x21, 0x2F), (0x3A, 0x40), (0x5B, 0x60), (0x7B, 0x7E)]
  | "space" => some [(0x09, 0x0D), (0x20, 0x20)]
  | "upper" => some [(0x41, 0x5A)]
  | "word" => some [(0x30, 0x39), (0x41, 0x5A), (0x5F, 0x5F), (0x61, 0x7A)]
  | "xdigit" => some [(0x30, 0x39), (0x41, 0x46), (0x61, 0x66)]
  | _ => none

/-- A named ASCII class after an opening bracket, if there is one. -/
def namedClass? (cs : List Char) : Option (Text.Ranges × List Char) :=
  match cs with
  | '[' :: ':' :: rest =>
    let (negated, rest) :=
      match rest with
      | '^' :: r => (true, r)
      | r => (false, r)
    let name := rest.takeWhile fun c => c != ':'
    match rest.drop name.length with
    | ':' :: ']' :: r =>
      (asciiClass? (String.ofList name)).map fun s => (if negated then s.complement else s, r)
    | _ => none
  | _ => none

inductive SetOp where
  | inter
  | diff
  | symmDiff

def SetOp.apply (op : SetOp) (a b : Text.Ranges) : Text.Ranges :=
  match op with
  | .inter => a.inter b
  | .diff => a.diff b
  | .symmDiff => a.symmDiff b

/-- A class being read: the part before the last operator, and the union read since. -/
structure OpenClass where
  negated : Bool
  pending : Option (Text.Ranges × SetOp)
  items : Text.Ranges

def folded (flags : Flags) (set : Text.Ranges) : Text.Ranges :=
  if flags.ignoreCase then set.foldCase else set.normal

/-- The parts read so far as one set; operators associate to the left. -/
def OpenClass.joined (flags : Flags) (c : OpenClass) : Text.Ranges :=
  match c.pending with
  | none => folded flags c.items
  | some (left, op) => op.apply (folded flags left) (folded flags c.items)

def OpenClass.close (flags : Flags) (c : OpenClass) : Text.Ranges :=
  let set := folded flags (c.joined flags)
  if c.negated then set.complement else set

def classAtom? (flags : Flags) (cs : List Char) : Option (Atom × List Char) :=
  match cs with
  | [] => none
  | '\\' :: rest => escapeAtom? flags rest
  | c :: rest => some (.char c.toNat, rest)

/-- An atom or a range inside a class.  A minus before a closing bracket or before another
minus starts no range. -/
def classItem? (flags : Flags) (cs : List Char) : Option (Text.Ranges × List Char) := do
  let (first, rest) ← classAtom? flags cs
  let single : Option (Text.Ranges × List Char) :=
    match first with
    | .char c => some ([(c, c)], skip flags rest)
    | .set s => some (s, skip flags rest)
    | .look _ => none
  match skip flags rest with
  | [] => none
  | '-' :: r =>
    match skip flags r with
    | [] => none
    | ']' :: _ | '-' :: _ => single
    | r => do
      let (second, r) ← classAtom? flags r
      match first, second with
      | .char a, .char b => if a ≤ b then some ([(a, b)], r) else none
      | _, _ => none
  | _ => single

def leadingMinus (flags : Flags) : List Char → Text.Ranges × List Char
  | '-' :: rest =>
    let (items, r) := leadingMinus flags rest
    ((0x2D, 0x2D) :: items, r)
  | cs => ([], cs)

/-- The start of a class after its bracket: an optional negation, literal minus signs, and a
closing bracket that is literal because nothing stands before it. -/
def openClass? (flags : Flags) (cs : List Char) : Option (OpenClass × List Char) :=
  let (negated, cs) :=
    match skip flags cs with
    | '^' :: r => (true, skip flags r)
    | r => (false, r)
  let (minus, cs) := leadingMinus flags cs
  let (items, cs) :=
    match minus, cs with
    | [], ']' :: r => ([(0x5D, 0x5D)], r)
    | minus, cs => (minus, cs)
  if cs.isEmpty then none else some (⟨negated, none, items⟩, cs)

/-- Reads the inside of a class up to the bracket that closes the outermost one; `outer` holds
the classes around the current one.  Every step takes a character. -/
def classBody : Nat → Flags → OpenClass → List OpenClass → List Char →
    Option (Text.Ranges × List Char)
  | 0, _, _, _, _ => none
  | fuel + 1, flags, current, outer, cs =>
    let operator (op : SetOp) (rest : List Char) :=
      classBody fuel flags ⟨current.negated, some (current.joined flags, op), []⟩ outer rest
    match skip flags cs with
    | [] => none
    | '[' :: rest =>
      match namedClass? ('[' :: rest) with
      | some (set, r) => classBody fuel flags { current with items := current.items ++ set } outer r
      | none =>
        if nestLimit ≤ outer.length + 1 then none
        else
          match openClass? flags rest with
          | some (inner, r) => classBody fuel flags inner (current :: outer) r
          | none => none
    | ']' :: rest =>
      let set := current.close flags
      match outer with
      | [] => some (set, rest)
      | parent :: more =>
        classBody fuel flags { parent with items := parent.items ++ set } more rest
    | '&' :: '&' :: rest => operator .inter rest
    | '-' :: '-' :: rest => operator .diff rest
    | '~' :: '~' :: rest => operator .symmDiff rest
    | cs =>
      match classItem? flags cs with
      | some (set, r) => classBody fuel flags { current with items := current.items ++ set } outer r
      | none => none

def characterClass? (flags : Flags) (cs : List Char) : Option (Text.Ranges × List Char) := do
  let (start, rest) ← openClass? flags cs
  classBody (cs.length + 1) flags start [] rest

/-! ### Repetition -/

/-- A count of a repetition, at most 32 bits, with blanks around it. -/
def count? (cs : List Char) : Option (Nat × List Char) :=
  let cs := cs.dropWhile Text.isBlank
  let digits := cs.takeWhile Char.isDigit
  let value := digits.foldl (fun acc c => acc * 10 + (c.toNat - '0'.toNat)) 0
  if digits.isEmpty ∨ 1 <<< 32 ≤ value then none
  else some (value, (cs.drop digits.length).dropWhile Text.isBlank)

def counts? (flags : Flags) (cs : List Char) : Option (Nat × Option Nat × List Char) := do
  let isClose (c : Char) : Bool := c == Char.ofNat 0x7D
  let (least, rest) ← count? (skip flags cs)
  match skip flags rest with
  | ',' :: r =>
    match skip flags r with
    | [] => none
    | c :: r' =>
      if isClose c then return (least, none, r')
      else do
        let (most, r'') ← count? (c :: r')
        match skip flags r'' with
        | d :: r''' => if isClose d ∧ least ≤ most then return (least, some most, r''') else none
        | [] => none
  | c :: r => if isClose c then return (least, some least, r) else none
  | [] => none

/-! ### Expressions -/

/-- What was read of a group: finished alternatives, and the current sequence in reverse; an
entry is none where a flag setting stands, which nothing may repeat. -/
structure Partial where
  done : Option Regex := none
  items : List (Option Regex) := []

def Partial.sequence (p : Partial) : Regex :=
  match p.items.filterMap id with
  | [] => .empty
  | r :: rest => rest.foldl (fun acc s => .seq s acc) r

def Partial.finish (p : Partial) : Regex :=
  match p.done with
  | none => p.sequence
  | some r => .alt r p.sequence

def Partial.push (p : Partial) (r : Regex) : Partial := { p with items := some r :: p.items }

def Partial.repeatLast? (p : Partial) (least : Nat) (most : Option Nat) : Option Partial :=
  match p.items with
  | some r :: rest => some { p with items := some (.rep r least most) :: rest }
  | _ => none

inductive Flag where
  | ignoreCase
  | multiLine
  | dotAll
  | swapGreed
  | unicode
  | ignoreBlanks
  | crlf
  deriving DecidableEq

def flag? : Char → Option Flag
  | 'i' => some .ignoreCase
  | 'm' => some .multiLine
  | 's' => some .dotAll
  | 'U' => some .swapGreed
  | 'u' => some .unicode
  | 'x' => some .ignoreBlanks
  | 'R' => some .crlf
  | _ => none

def Flags.set (flags : Flags) (flag : Flag) (on : Bool) : Flags :=
  match flag with
  | .ignoreCase => { flags with ignoreCase := on }
  | .multiLine => { flags with multiLine := on }
  | .dotAll => { flags with dotAll := on }
  | .unicode => { flags with unicode := on }
  | .ignoreBlanks => { flags with ignoreBlanks := on }
  | .swapGreed | .crlf => flags

/-- A list of flags up to a colon or a closing parenthesis: each at most once, with at most one
minus, which some flag must follow.  Answers the new flags, the end mark and the rest. -/
def flagList? : List Char → Flags → List Flag → Bool → Bool → Option (Flags × Char × List Char)
  | [], _, _, _, _ => none
  | c :: rest, flags, seen, negated, dangling =>
    if c = ':' ∨ c = ')' then
      if dangling ∨ (c = ')' ∧ seen.isEmpty) then none else some (flags, c, rest)
    else if c = '-' then
      if negated then none else flagList? rest flags seen true true
    else
      match flag? c with
      | some f =>
        if seen.contains f then none
        else flagList? rest (flags.set f !negated) (f :: seen) negated false
      | none => none

def groupName? (cs : List Char) : Option (List Char × List Char) :=
  let name := cs.takeWhile (· != '>')
  let first (c : Char) : Bool := c == '_' || Text.isLetter c
  let later (c : Char) : Bool :=
    first c || Text.isDecimalDigit c || c == '.' || c == '[' || c == ']'
  match name, cs.drop name.length with
  | c :: more, _ :: rest => if first c ∧ more.all later then some (name, rest) else none
  | _, _ => none

/-- A group around the current one: what was read of it, and the flags to return to. -/
structure Frame where
  outer : Partial
  flags : Flags

def literal (flags : Flags) (c : Nat) : Regex := .oneOf (folded flags [(c, c)])

def anyCharacter (flags : Flags) : Regex :=
  .oneOf (if flags.dotAll then Text.Ranges.everything else Text.Ranges.complement [(0x0A, 0x0A)])

def ofAtom (flags : Flags) : Atom → Regex
  | .char c => literal flags c
  | .set s => .oneOf (folded flags s)
  | .look l => .look l

/-- Reads an expression; `frames` are the open groups, `names` the group names used.  Every
step takes a character. -/
def expression : Nat → Flags → Partial → List Frame → List (List Char) → List Char → Option Regex
  | 0, _, _, _, _, _ => none
  | fuel + 1, flags, current, frames, names, cs =>
    match skip flags cs with
    | [] => if frames.isEmpty then some current.finish else none
    | c :: rest =>
      let continueWith (p : Partial) (cs : List Char) := expression fuel flags p frames names cs
      let repeated (least : Nat) (most : Option Nat) (cs : List Char) :=
        match current.repeatLast? least most with
        | none => none
        | some p =>
          match skip flags cs with
          | '?' :: r => continueWith p r
          | r => continueWith p r
      let openGroup (inner : Flags) (names : List (List Char)) (cs : List Char) :=
        if nestLimit ≤ frames.length then none
        else expression fuel inner {} (⟨current, flags⟩ :: frames) names cs
      if c = '|' then continueWith { done := some current.finish } rest
      else if c = ')' then
        match frames with
        | [] => none
        | frame :: more =>
          expression fuel frame.flags (frame.outer.push current.finish) more names rest
      else if c = '(' then
        match skip flags rest with
        | '?' :: '=' :: _ | '?' :: '!' :: _ | '?' :: '<' :: '=' :: _ | '?' :: '<' :: '!' :: _ => none
        | '?' :: 'P' :: '<' :: r | '?' :: '<' :: r =>
          match groupName? r with
          | some (name, r) => if names.contains name then none else openGroup flags (name :: names) r
          | none => none
        | '?' :: r =>
          match flagList? r flags [] false false with
          | some (inner, mark, r) =>
            if mark = ':' then openGroup inner names r
            else
              expression fuel inner { current with items := none :: current.items } frames names r
          | none => none
        | r => openGroup flags names r
      else if c = '*' then repeated 0 none rest
      else if c = '+' then repeated 1 none rest
      else if c = '?' then repeated 0 (some 1) rest
      else if c = Char.ofNat 0x7B then
        match counts? flags rest with
        | some (least, most, r) => repeated least most r
        | none => none
      else if c = '[' then
        match characterClass? flags rest with
        | some (set, r) => continueWith (current.push (.oneOf set)) r
        | none => none
      else if c = '\\' then
        match escapeAtom? flags rest with
        | some (atom, r) => continueWith (current.push (ofAtom flags atom)) r
        | none => none
      else if c = '.' then continueWith (current.push (anyCharacter flags)) rest
      else if c = '^' then
        continueWith (current.push (.look (if flags.multiLine then .lineStart else .textStart))) rest
      else if c = '$' then
        continueWith (current.push (.look (if flags.multiLine then .lineEnd else .textEnd))) rest
      else continueWith (current.push (literal flags c.toNat)) rest

/-- Number of steps an expression unfolds to; a set of many ranges counts for several. -/
def size : Regex → Nat
  | .empty => 1
  | .oneOf set => if set.all fun r => r.2 < 0x80 then 1 else 5 + 2 * set.length
  | .look _ => 1
  | .seq r s => size r + size s
  | .alt r s => size r + size s + 1
  | .rep r least most =>
    match most with
    | some most => max least most * (size r + 1)
    | none => (least + 1) * size r + 1

end Recordkeeper.Regex.Parser

namespace Recordkeeper

/-- Reads an expression; none for a malformed or an oversized one. -/
def Regex.parse? (text : String) : Option Regex :=
  match Regex.Parser.expression (text.length + 1) {} {} [] [] text.toList with
  | some r => if Regex.Parser.size r ≤ Regex.Parser.sizeLimit then some r else none
  | none => none

end Recordkeeper
