import Recordkeeper.Text.Classes

/-!
Contract: regular expressions and when they match.

Owns:
- expressions over sets of characters, positions and repetition;
- the positions a match can end at, by recursion on the expression;
- matching anywhere in a text.

Does not own: the written form of expressions, which is `Pattern.Regex.Parser`.
-/

set_option autoImplicit false

namespace Recordkeeper

inductive Look where
  | textStart
  | textEnd
  | lineStart
  | lineEnd
  | wordEdge
  | notWordEdge
  | wordStart
  | wordEnd
  deriving DecidableEq, Repr

inductive Regex where
  | empty
  | oneOf (set : Text.Ranges)
  | look (condition : Look)
  | seq (first second : Regex)
  | alt (left right : Regex)
  | rep (body : Regex) (least : Nat) (most : Option Nat)
  deriving Repr

namespace Regex

/-- A position in a text: the character before it and the characters after it. -/
structure Cursor where
  before : Option Char
  after : List Char
  deriving DecidableEq, Repr

namespace Cursor

def wordBefore (p : Cursor) : Bool := p.before.any Text.isWord
def wordAfter (p : Cursor) : Bool := p.after.head?.any Text.isWord

def holds (p : Cursor) : Look → Bool
  | .textStart => p.before.isNone
  | .textEnd => p.after.isEmpty
  | .lineStart => p.before.isNone || p.before == some '\n'
  | .lineEnd => p.after.isEmpty || p.after.head? == some '\n'
  | .wordEdge => p.wordBefore != p.wordAfter
  | .notWordEdge => p.wordBefore == p.wordAfter
  | .wordStart => !p.wordBefore && p.wordAfter
  | .wordEnd => p.wordBefore && !p.wordAfter

end Cursor

/-- Adds positions that are not there yet.  Positions of one text are told apart by what is
left of the text. -/
def merge (known new : List Cursor) : List Cursor :=
  new.foldl
    (fun acc p => if acc.any (·.after.length == p.after.length) then acc else p :: acc) known

/-- The positions reached from a set of positions by one step. -/
def advance (step : Cursor → List Cursor) (from' : List Cursor) : List Cursor :=
  from'.foldl (fun acc p => merge acc (step p)) []

def advanceTimes (step : Cursor → List Cursor) : Nat → List Cursor → List Cursor
  | 0, ps => ps
  | n + 1, ps => if ps.isEmpty then [] else advanceTimes step n (advance step ps)

def advanceUpTo (step : Cursor → List Cursor) : Nat → List Cursor → List Cursor
  | 0, ps => ps
  | n + 1, ps =>
    let more := merge ps (advance step ps)
    if more.length = ps.length then ps else advanceUpTo step n more

/-- The positions at which a match that starts at `p` can end.  A repetition without upper
bound needs no more steps than there are characters left, since further steps reach no new
position. -/
def ends : Regex → Cursor → List Cursor
  | .empty, p => [p]
  | .oneOf set, p =>
    match p.after with
    | c :: rest => if set.contains c.toNat then [⟨some c, rest⟩] else []
    | [] => []
  | .look condition, p => if p.holds condition then [p] else []
  | .seq r s, p => advance (ends s) (ends r p)
  | .alt r s, p => merge (ends r p) (ends s p)
  | .rep r least most, p =>
    let start := advanceTimes (ends r) least [p]
    match most with
    | some most => advanceUpTo (ends r) (most - least) start
    | none => advanceUpTo (ends r) (p.after.length + 1) start

/-- Whether some match starts at one of the positions from `before` on. -/
def matchesFrom (r : Regex) (before : Option Char) : List Char → Bool
  | [] => !(r.ends ⟨before, []⟩).isEmpty
  | c :: rest => !(r.ends ⟨before, c :: rest⟩).isEmpty || r.matchesFrom (some c) rest

def isMatch (r : Regex) (text : String) : Bool := r.matchesFrom none text.toList

end Regex

end Recordkeeper
